import Mathlib.Data.Finset.Basic
import GwWeb.OutputMachines

/-!
What the pages of the web interface are promised: one of two displays at a time, shown
to every page that has it open, and one answer to each request.
-/

namespace GwWeb.DisplayPages

open OutputMachines

/-- What a page can ask for; the `other` requests are dealt with elsewhere. -/
inductive Request (C : Type*) where
  | startCsi
  | stopCsi
  | startConstell
  | stopConstell
  | other (command : C)
  deriving DecidableEq

/-- What becomes of a request to open a display. -/
inductive Verdict where
  | done
  | refused
  | excluded
  deriving DecidableEq

/-- What a client asks for, and the samples of the device. -/
inductive Input (κ C P Q : Type*) where
  | leave (c : κ)
  | ask (c : κ) (r : Request C) (agreed : Bool)
  | csiSample (p : P)
  | constellSample (q : Q)

/-- What a client gets: an answer, or a display. -/
inductive Output (C P Q : Type*) where
  | answer (r : Request C) (v : Verdict)
  | csi (p : P)
  | constell (q : Q)
  deriving DecidableEq

/-- The pages that have a display open. CSI may be running without any, behind a start
that was refused. -/
structure Pages (κ : Type*) where
  csi : Finset κ
  constell : Finset κ
  running : Bool
  exclusive : csi = ∅ ∨ constell = ∅
  runs : csi ≠ ∅ → running = true

namespace Pages

variable {κ C P Q : Type*} [DecidableEq κ]

def closed : Pages κ where
  csi := ∅
  constell := ∅
  running := false
  exclusive := .inl rfl
  runs := fun h => absurd rfl h

/-- CSI runs for these clients, while nobody has the constellation. -/
def runCsi (csi : Finset κ) (p : Pages κ) (h : p.constell = ∅) : Pages κ where
  csi := csi
  constell := p.constell
  running := true
  exclusive := .inr h
  runs := fun _ => rfl

/-- One more client has the constellation, while nobody has CSI. -/
def openConstell (c : κ) (p : Pages κ) (h : p.csi = ∅) : Pages κ where
  csi := p.csi
  constell := insert c p.constell
  running := p.running
  exclusive := .inl h
  runs := p.runs

/-- The last page that closes CSI stops it. -/
def closeCsi (c : κ) (p : Pages κ) : Pages κ where
  csi := p.csi.erase c
  constell := p.constell
  running := p.running && decide (p.csi.erase c ≠ ∅)
  exclusive := p.exclusive.imp_left fun h => by rw [h, Finset.erase_empty]
  runs := by
    intro h
    have hcsi : p.csi ≠ ∅ := by
      intro hnone
      exact h (by rw [hnone, Finset.erase_empty])
    simp [p.runs hcsi, h]

def closeConstell (c : κ) (p : Pages κ) : Pages κ where
  csi := p.csi
  constell := p.constell.erase c
  running := p.running
  exclusive := p.exclusive.imp_right fun h => by rw [h, Finset.erase_empty]
  runs := p.runs

/-- A client closes whatever it has open. -/
def leave (c : κ) (p : Pages κ) : Pages κ :=
  (if c ∈ p.csi then p.closeCsi c else p).closeConstell c

/-- The answer to a request: the two displays exclude each other. -/
def verdict (p : Pages κ) (agreed : Bool) : Request C → Verdict
  | .startCsi =>
      if p.constell ≠ ∅ then .excluded else if p.running || agreed then .done else .refused
  | .stopCsi => .done
  | .startConstell => if p.csi ≠ ∅ then .excluded else .done
  | .stopConstell => .done
  | .other _ => if agreed then .done else .refused

/-- CSI is started for a page; it runs behind a refusal too. -/
def startCsi (c : κ) (agreed : Bool) (p : Pages κ) : Pages κ :=
  if h : p.constell = ∅ then
    p.runCsi (if p.running || agreed then insert c p.csi else p.csi) h
  else p

def startConstell (c : κ) (p : Pages κ) : Pages κ :=
  if h : p.csi = ∅ then p.openConstell c h else p

/-- What a request does to the displays. -/
def ask (c : κ) (agreed : Bool) (p : Pages κ) : Request C → Pages κ
  | .startCsi => p.startCsi c agreed
  | .stopCsi => p.closeCsi c
  | .startConstell => p.startConstell c
  | .stopConstell => p.closeConstell c
  | .other _ => p

/-- What an input does to the displays. -/
def next (p : Pages κ) : Input κ C P Q → Pages κ
  | .leave c => p.leave c
  | .ask c r agreed => p.ask c agreed r
  | .csiSample _ => p
  | .constellSample _ => p

/-- What page `c` is sent. -/
def shown (c : κ) (p : Pages κ) : Input κ C P Q → List (Output C P Q)
  | .leave _ => []
  | .ask d r agreed => if d = c then [.answer r (p.verdict agreed r)] else []
  | .csiSample x => if c ∈ p.csi then [.csi x] else []
  | .constellSample x => if c ∈ p.constell then [.constell x] else []

end Pages

/-- The service as one of its pages sees it. -/
def service {κ : Type*} (C P Q : Type*) [DecidableEq κ] (c : κ) :
    Machine (Pages κ) (Input κ C P Q) (Output C P Q) where
  next := Pages.next
  out := Pages.shown c

/-- The display a page has open, if any. -/
inductive View where
  | nothing
  | csi
  | constell
  deriving DecidableEq

variable {κ C P Q : Type*} [DecidableEq κ] {p : Pages κ} {c : κ}

/-- What a client has open. -/
def Pages.view (c : κ) (p : Pages κ) : View :=
  if c ∈ p.csi then .csi else if c ∈ p.constell then .constell else .nothing

/-- The samples that such a view shows. -/
def View.samples : View → Input κ C P Q → List (Output C P Q)
  | .csi, .csiSample x => [.csi x]
  | .constell, .constellSample x => [.constell x]
  | _, _ => []

def Output.sample? : Output C P Q → Option (Output C P Q)
  | .answer _ _ => none
  | o => some o

/-- The page leaves, or asks for a display to be started or stopped. -/
def Input.Moves (c : κ) : Input κ C P Q → Prop
  | .leave d => d = c
  | .ask _ (.other _) _ => False
  | .ask d _ _ => d = c
  | _ => False

section View

omit [DecidableEq κ] in
theorem Pages.not_mem_constell (h : c ∈ p.csi) : c ∉ p.constell := by
  rcases p.exclusive with hnone | hnone
  · simp [hnone] at h
  · simp [hnone]

theorem Pages.view_csi_iff : p.view c = .csi ↔ c ∈ p.csi := by
  unfold Pages.view
  split
  · simpa
  · split <;> simpa

theorem Pages.view_constell_iff : p.view c = .constell ↔ c ∈ p.constell := by
  unfold Pages.view
  split
  · rename_i hcsi
    simp [p.not_mem_constell hcsi]
  · split <;> simpa

theorem Pages.view_congr {p' : Pages κ} (hcsi : c ∈ p'.csi ↔ c ∈ p.csi)
    (hconstell : c ∈ p'.constell ↔ c ∈ p.constell) : p'.view c = p.view c := by
  simp only [Pages.view, hcsi, hconstell]

theorem Pages.view_closeCsi {d : κ} (h : d ≠ c) : (p.closeCsi d).view c = p.view c := by
  apply Pages.view_congr
  · show c ∈ p.csi.erase d ↔ c ∈ p.csi
    simp [Ne.symm h]
  · exact Iff.rfl

theorem Pages.view_closeConstell {d : κ} (h : d ≠ c) :
    (p.closeConstell d).view c = p.view c := by
  apply Pages.view_congr
  · exact Iff.rfl
  · show c ∈ p.constell.erase d ↔ c ∈ p.constell
    simp [Ne.symm h]

theorem Pages.view_ask {d : κ} {r : Request C} (h : (∃ q, r = .other q) ∨ d ≠ c) (agreed : Bool) :
    (p.ask d agreed r).view c = p.view c := by
  cases r with
  | startCsi =>
      have hd : d ≠ c := h.resolve_left (by simp)
      simp only [Pages.ask, Pages.startCsi]
      split
      · apply Pages.view_congr
        · show c ∈ (if p.running || agreed then insert d p.csi else p.csi) ↔ c ∈ p.csi
          split
          · simp [Ne.symm hd]
          · exact Iff.rfl
        · exact Iff.rfl
      · rfl
  | stopCsi => exact Pages.view_closeCsi (h.resolve_left (by simp))
  | startConstell =>
      have hd : d ≠ c := h.resolve_left (by simp)
      simp only [Pages.ask, Pages.startConstell]
      split
      · apply Pages.view_congr
        · exact Iff.rfl
        · show c ∈ insert d p.constell ↔ c ∈ p.constell
          simp [Ne.symm hd]
      · rfl
  | stopConstell => exact Pages.view_closeConstell (h.resolve_left (by simp))
  | other q => rfl

theorem samples_shown (i : Input κ C P Q) :
    (p.shown c i).filterMap Output.sample? = (p.view c).samples i := by
  have hcsi := p.view_csi_iff (c := c)
  have hconstell := p.view_constell_iff (c := c)
  cases i with
  | leave d => cases p.view c <;> rfl
  | ask d r agreed =>
      simp only [Pages.shown]
      split <;> cases p.view c <;> rfl
  | csiSample x =>
      simp only [Pages.shown, ← hcsi]
      cases p.view c <;> rfl
  | constellSample x =>
      simp only [Pages.shown, ← hconstell]
      cases p.view c <;> rfl

theorem Pages.view_next {i : Input κ C P Q} (h : ¬ i.Moves c) : (p.next i).view c = p.view c := by
  cases i with
  | leave d =>
      have hd : d ≠ c := h
      show ((if d ∈ p.csi then p.closeCsi d else p).closeConstell d).view c = p.view c
      rw [Pages.view_closeConstell hd]
      split
      · exact Pages.view_closeCsi hd
      · rfl
  | ask d r agreed =>
      apply Pages.view_ask
      cases r with
      | other q => exact .inl ⟨q, rfl⟩
      | _ => exact .inr h
  | csiSample x => rfl
  | constellSample x => rfl

/-- Whatever the other pages do, a page that does not move keeps its view, and is sent
the samples of it, in order. -/
theorem samples_outputs {is : List (Input κ C P Q)} (h : ∀ i ∈ is, ¬ i.Moves c) :
    ((service C P Q c).after p is).view c = p.view c ∧
      ((service C P Q c).outputs p is).filterMap Output.sample? =
        is.flatMap (p.view c).samples := by
  rw [← Machine.watch_outputs]
  refine Machine.outputs_of_steady (M := (service C P Q c).watch Output.sample?)
    (P := fun p' => p'.view c = p.view c) ?_ rfl
  intro i hi p' hp'
  exact ⟨(Pages.view_next (h i hi)).trans hp', by rw [← hp']; exact samples_shown i⟩

end View

end GwWeb.DisplayPages
