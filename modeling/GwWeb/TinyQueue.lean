import Mathlib.Data.Fintype.Basic
import GwWeb.LinkedCells
import GwWeb.TransitionRuns
import GwWeb.WebCommon

/-!
`tiny_queue.c` under any number of threads. Lock, unlock, wait and signal are steps of
their own; what is done in between while the mutex is held is one step.
-/

namespace GwWeb.TinyQueue

open LinkedCells
open TransitionRuns
open GwWeb.WebCommon (Fault bind_eq_ok)

/-- Where a thread is in `tiny_queue_push` or `tiny_queue_pop`. It holds the mutex in
`linking`, `linked`, `testing` (at the `while`) and `taken`. -/
inductive Place (α : Type) where
  | outside
  | pushing (newNode : Nat) (data : α)
  | linking (newNode : Nat) (data : α)
  | linked
  | signalling
  | popping
  | testing
  | waiting
  | woken
  | taken (data : α)
  deriving DecidableEq

/-- The queue, its mutex and the threads. `pushed` and `popped` list the values that
were linked and taken, in the order of the locks. -/
structure State (τ α : Type) where
  heap : Heap α
  head : Option Nat
  tail : Option Nat
  mutex : Option τ
  place : τ → Place α
  pushed : List α
  popped : List α

/-- A thread enters a call, gets the mutex, or takes its next step. -/
inductive Label (τ α : Type) where
  | push (t : τ) (data : α) (newNode : Option Nat)
  | pop (t : τ)
  | lock (t : τ)
  | act (t : τ)
  | unlock (t : τ)
  | signal (t : τ) (woken : List τ)
  | wake (t : τ)

section Threads

variable {τ α : Type} [DecidableEq τ]

def tinyQueueCreate : State τ α :=
  { heap := fun _ => none, head := none, tail := none, mutex := none,
    place := fun _ => .outside, pushed := [], popped := [] }

def moveTo (t : τ) (p : Place α) (s : State τ α) : State τ α :=
  { s with place := Function.update s.place t p }

/-- What `tiny_queue_push` does while it holds the mutex. -/
def link (newNode : Nat) (s : State τ α) : Except Fault (State τ α) :=
  if s.head = none ∧ s.tail = none then
    .ok { s with head := some newNode, tail := some newNode }
  else
    match s.tail with
    | none => .error .nullPointer
    | some a =>
        match s.heap a with
        | none => .error .afterFree
        | some cell =>
            .ok { s with
              heap := Function.update s.heap a (some { cell with next := some newNode })
              tail := some newNode }

/-- What `tiny_queue_pop` does behind its `while`. -/
def take (s : State τ α) : Except Fault (α × State τ α) :=
  match s.head with
  | none => .error .nullPointer
  | some currentHead =>
      match s.heap currentHead with
      | none => .error .afterFree
      | some cell =>
          let heap := Function.update s.heap currentHead none
          if s.head = s.tail then .ok (cell.data, { s with heap, head := none, tail := none })
          else .ok (cell.data, { s with heap, head := cell.next })

/-- `push` is the call up to the lock, with what `malloc` returns; without memory it
returns -1 at once. `wake` is a spurious wake-up. -/
def execute (s : State τ α) : Label τ α → Except Fault (State τ α)
  | .push _ _ none => .ok s
  | .push t data (some a) =>
      .ok (moveTo t (.pushing a data)
        { s with heap := Function.update s.heap a (some ⟨data, none⟩) })
  | .pop t => .ok (moveTo t .popping s)
  | .lock t =>
      match s.place t with
      | .pushing a data => .ok (moveTo t (.linking a data) { s with mutex := some t })
      | _ => .ok (moveTo t .testing { s with mutex := some t })
  | .act t =>
      match s.place t with
      | .linking a data => do
          let s ← link a s
          return moveTo t .linked { s with pushed := s.pushed ++ [data] }
      | _ =>
          if s.head = none then .ok (moveTo t .waiting { s with mutex := none })
          else do
            let (data, s) ← take s
            return moveTo t (.taken data) { s with popped := s.popped ++ [data] }
  | .unlock t =>
      match s.place t with
      | .linked => .ok (moveTo t .signalling { s with mutex := none })
      | _ => .ok (moveTo t .outside { s with mutex := none })
  | .signal t woken =>
      .ok { s with place := fun u =>
        if u ∈ woken then .woken else if u = t then .outside else s.place u }
  | .wake t => .ok (moveTo t .woken s)

/-- The thread waits for the mutex. -/
def Place.AtLock : Place α → Prop
  | .pushing _ _ | .popping | .woken => True
  | _ => False

/-- The thread has the mutex, and its work is still to do. -/
def Place.InSection : Place α → Prop
  | .linking _ _ | .testing => True
  | _ => False

/-- The thread has the mutex, and its work is done. -/
def Place.AtUnlock : Place α → Prop
  | .linked | .taken _ => True
  | _ => False

/-- `malloc` returns memory that is not in use; a signal wakes one waiting thread or
more, if there is one. -/
def Possible (s : State τ α) : Label τ α → Prop
  | .push t _ newNode => s.place t = .outside ∧ ∀ a ∈ newNode, s.heap a = none
  | .pop t => s.place t = .outside
  | .lock t => s.mutex = none ∧ (s.place t).AtLock
  | .act t => (s.place t).InSection
  | .unlock t => (s.place t).AtUnlock
  | .signal t woken =>
      s.place t = .signalling ∧ (∀ u ∈ woken, s.place u = .waiting) ∧
        ((∃ u, s.place u = .waiting) → woken ≠ [])
  | .wake t => s.place t = .waiting

abbrev Step : State τ α → Label τ α → State τ α → Prop := Executes Possible execute

/-- The node that a thread has allocated and not linked yet. -/
def Place.Pending (p : Place α) (a : Nat) (x : α) : Prop := p = .pushing a x ∨ p = .linking a x

/-- The queue is the list of these cells. -/
structure Queued (s : State τ α) (cells : List (Nat × α)) : Prop where
  chain : Chain s.heap s.head cells
  tail : s.tail = cells.getLast?.map Prod.fst
  fifo : s.popped ++ cells.map Prod.snd = s.pushed
  pending : ∀ t a x, (s.place t).Pending a x →
    s.heap a = some ⟨x, none⟩ ∧ a ∉ cells.map Prod.fst
  own : ∀ t u a x y, (s.place t).Pending a x → (s.place u).Pending a y → t = u

/-- The thread has the mutex. -/
def Place.Holds (p : Place α) : Prop := p.InSection ∨ p.AtUnlock

/-- Nobody is in the section without the mutex. -/
structure Excludes (s : State τ α) : Prop where
  mutex : ∀ t, (s.place t).Holds → s.mutex = some t

/-- A thread that will test the queue again, or wake one that will. -/
def Place.Credit : Place α → Prop
  | .linked | .signalling | .woken | .testing => True
  | _ => False

/-- While a thread waits, each value in the queue is matched by a thread with credit. -/
structure Backed (s : State τ α) (cells : List (Nat × α)) : Prop where
  matched : ∀ u, s.place u = .waiting → ∃ threads : List τ, threads.Nodup ∧
    (∀ t ∈ threads, (s.place t).Credit) ∧ cells.length ≤ threads.length

variable {s s' : State τ α} {cells : List (Nat × α)} {l : Label τ α} {t u : τ} {a : Nat} {x : α}

/-- What one step does. -/
inductive Moved (s : State τ α) : Label τ α → State τ α → Prop where
  | noMemory (t : τ) (data : α) (ht : s.place t = .outside) : Moved s (.push t data none) s
  | push (t : τ) (data : α) (a : Nat) (ht : s.place t = .outside) (ha : s.heap a = none) :
      Moved s (.push t data (some a)) (moveTo t (.pushing a data)
        { s with heap := Function.update s.heap a (some ⟨data, none⟩) })
  | pop (t : τ) (ht : s.place t = .outside) : Moved s (.pop t) (moveTo t .popping s)
  | lockPush (t : τ) (a : Nat) (data : α) (hmutex : s.mutex = none)
      (ht : s.place t = .pushing a data) :
      Moved s (.lock t) (moveTo t (.linking a data) { s with mutex := some t })
  | lockPop (t : τ) (hmutex : s.mutex = none) (ht : s.place t = .popping ∨ s.place t = .woken) :
      Moved s (.lock t) (moveTo t .testing { s with mutex := some t })
  | link (t : τ) (a : Nat) (data : α) (s₁ : State τ α) (ht : s.place t = .linking a data)
      (hlink : link a s = .ok s₁) :
      Moved s (.act t) (moveTo t .linked { s₁ with pushed := s₁.pushed ++ [data] })
  | wait (t : τ) (ht : s.place t = .testing) (hhead : s.head = none) :
      Moved s (.act t) (moveTo t .waiting { s with mutex := none })
  | take (t : τ) (data : α) (s₁ : State τ α) (ht : s.place t = .testing) (hhead : s.head ≠ none)
      (htake : take s = .ok (data, s₁)) :
      Moved s (.act t) (moveTo t (.taken data) { s₁ with popped := s₁.popped ++ [data] })
  | unlockPush (t : τ) (ht : s.place t = .linked) :
      Moved s (.unlock t) (moveTo t .signalling { s with mutex := none })
  | unlockPop (t : τ) (data : α) (ht : s.place t = .taken data) :
      Moved s (.unlock t) (moveTo t .outside { s with mutex := none })
  | signal (t : τ) (woken : List τ) (ht : s.place t = .signalling)
      (hwoken : ∀ u ∈ woken, s.place u = .waiting)
      (hsome : (∃ u, s.place u = .waiting) → woken ≠ []) :
      Moved s (.signal t woken) { s with place := fun u =>
        if u ∈ woken then .woken else if u = t then .outside else s.place u }
  | wake (t : τ) (ht : s.place t = .waiting) : Moved s (.wake t) (moveTo t .woken s)

theorem moved_of_step (h : Step s l s') : Moved s l s' := by
  obtain ⟨hpossible, hok⟩ := h
  cases l with
  | push t data newNode =>
      cases newNode with
      | none =>
          obtain rfl := Except.ok.inj hok
          exact .noMemory t data hpossible.1
      | some a =>
          obtain rfl := Except.ok.inj hok
          exact .push t data a hpossible.1 (hpossible.2 a rfl)
  | pop t =>
      obtain rfl := Except.ok.inj hok
      exact .pop t hpossible
  | lock t =>
      obtain ⟨hmutex, hlock⟩ := hpossible
      cases ht : s.place t <;> simp only [ht, Place.AtLock] at hlock <;>
        simp only [execute, ht, Except.ok.injEq] at hok <;> subst hok
      · exact .lockPush t _ _ hmutex ht
      · exact .lockPop t hmutex (.inl ht)
      · exact .lockPop t hmutex (.inr ht)
  | act t =>
      simp only [Possible] at hpossible
      cases ht : s.place t <;> simp only [ht, Place.InSection] at hpossible
      · simp only [execute, ht] at hok
        obtain ⟨s₁, hlink, hok⟩ := bind_eq_ok.mp hok
        obtain rfl := Except.ok.inj hok
        exact .link t _ _ s₁ ht hlink
      · simp only [execute, ht] at hok
        split at hok
        · rename_i hhead
          obtain rfl := Except.ok.inj hok
          exact .wait t ht hhead
        · rename_i hhead
          obtain ⟨⟨data, s₁⟩, htake, hok⟩ := bind_eq_ok.mp hok
          obtain rfl := Except.ok.inj hok
          exact .take t data s₁ ht hhead htake
  | unlock t =>
      simp only [Possible] at hpossible
      cases ht : s.place t <;> simp only [ht, Place.AtUnlock] at hpossible <;>
        simp only [execute, ht, Except.ok.injEq] at hok <;> subst hok
      · exact .unlockPush t ht
      · exact .unlockPop t _ ht
  | signal t woken =>
      obtain ⟨ht, hwoken, hsome⟩ := hpossible
      obtain rfl := Except.ok.inj hok
      exact .signal t woken ht hwoken hsome
  | wake t =>
      obtain rfl := Except.ok.inj hok
      exact .wake t hpossible

theorem step_of_moved (h : Moved s l s') : Step s l s' := by
  cases h with
  | noMemory t data ht => exact ⟨⟨ht, by simp⟩, rfl⟩
  | push t data a ht ha => exact ⟨⟨ht, by simpa using ha⟩, rfl⟩
  | pop t ht => exact ⟨ht, rfl⟩
  | lockPush t a data hmutex ht =>
      exact ⟨⟨hmutex, by simp [ht, Place.AtLock]⟩, by simp [execute, ht]⟩
  | lockPop t hmutex ht =>
      rcases ht with ht | ht <;>
        exact ⟨⟨hmutex, by simp [ht, Place.AtLock]⟩, by simp [execute, ht]⟩
  | link t a data s₁ ht hlink =>
      refine ⟨by simp [Possible, ht, Place.InSection], ?_⟩
      simp [execute, ht, hlink, bind, Except.bind, pure, Except.pure]
  | wait t ht hhead =>
      exact ⟨by simp [Possible, ht, Place.InSection], by simp [execute, ht, hhead]⟩
  | take t data s₁ ht hhead htake =>
      refine ⟨by simp [Possible, ht, Place.InSection], ?_⟩
      simp [execute, ht, hhead, htake, bind, Except.bind, pure, Except.pure]
  | unlockPush t ht =>
      exact ⟨by simp [Possible, ht, Place.AtUnlock], by simp [execute, ht]⟩
  | unlockPop t data ht =>
      exact ⟨by simp [Possible, ht, Place.AtUnlock], by simp [execute, ht]⟩
  | signal t woken ht hwoken hsome => exact ⟨⟨ht, hwoken, hsome⟩, rfl⟩
  | wake t ht => exact ⟨ht, rfl⟩

theorem moveTo_place (p : Place α) (s : State τ α) :
    (moveTo t p s).place = Function.update s.place t p := rfl

theorem Queued.moveTo (h : Queued s cells) {p : Place α}
    (hp : ∀ a x, p.Pending a x → (s.place t).Pending a x) :
    Queued (TinyQueue.moveTo t p s) cells := by
  have hold : ∀ u a x, ((TinyQueue.moveTo t p s).place u).Pending a x →
      (s.place u).Pending a x := by
    intro u a x hpending
    rw [moveTo_place] at hpending
    rcases eq_or_ne u t with rfl | hne
    · rw [Function.update_self] at hpending
      exact hp a x hpending
    · rwa [Function.update_of_ne hne] at hpending
  refine ⟨h.chain, h.tail, h.fifo, fun u a x hpending => h.pending u a x (hold u a x hpending), ?_⟩
  intro u v a x y hu hv
  exact h.own u v a x y (hold u a x hu) (hold v a y hv)

omit [DecidableEq τ] in
theorem Queued.setMutex (h : Queued s cells) (mutex : Option τ) :
    Queued { s with mutex } cells :=
  ⟨h.chain, h.tail, h.fifo, h.pending, h.own⟩

theorem Queued.allocate (h : Queued s cells) (ht : s.place t = .outside) (ha : s.heap a = none) :
    Queued (TinyQueue.moveTo t (.pushing a x)
      { s with heap := Function.update s.heap a (some ⟨x, none⟩) }) cells := by
  have hout : a ∉ cells.map Prod.fst := by
    intro hmem
    obtain ⟨c, hc, rfl⟩ := List.mem_map.mp hmem
    obtain ⟨next, hcell⟩ := h.chain.allocated c hc
    simp [ha] at hcell
  have hcases : ∀ u b y, (Function.update s.place t (.pushing a x) u).Pending b y →
      u = t ∧ b = a ∧ y = x ∨ b ≠ a ∧ (s.place u).Pending b y := by
    intro u b y hpending
    rcases eq_or_ne u t with rfl | hne
    · rw [Function.update_self] at hpending
      rcases hpending with heq | heq
      · obtain ⟨rfl, rfl⟩ := Place.pushing.inj heq
        exact .inl ⟨rfl, rfl, rfl⟩
      · cases heq
    · rw [Function.update_of_ne hne] at hpending
      refine .inr ⟨?_, hpending⟩
      rintro rfl
      have hcell := (h.pending u b y hpending).1
      simp [ha] at hcell
  refine ⟨h.chain.congr fun c hc => ?_, h.tail, h.fifo, fun u b y hpending => ?_, ?_⟩
  · refine Function.update_of_ne ?_ _ _
    rintro rfl
    exact hout (List.mem_map_of_mem hc)
  · rcases hcases u b y hpending with ⟨rfl, rfl, rfl⟩ | ⟨hne, hold⟩
    · exact ⟨Function.update_self _ _ _, hout⟩
    · obtain ⟨hcell, hnot⟩ := h.pending u b y hold
      exact ⟨(Function.update_of_ne hne _ _).trans hcell, hnot⟩
  · intro u v b y z hu hv
    rcases hcases u b y hu with ⟨rfl, rfl, rfl⟩ | ⟨hne, hold⟩ <;>
      rcases hcases v b z hv with ⟨rfl, hb, rfl⟩ | ⟨hne', hold'⟩
    · rfl
    · exact absurd rfl hne'
    · exact absurd hb hne
    · exact h.own u v b y z hold hold'

omit [DecidableEq τ] in
theorem Queued.link (h : Queued s cells) (ht : (s.place t).Pending a x) :
    ∃ heap head tail, TinyQueue.link a s = .ok { s with heap, head, tail } ∧
      Chain heap head (cells ++ [(a, x)]) ∧ tail = some a ∧
      ∀ b, b ∉ cells.map Prod.fst → heap b = s.heap b := by
  obtain ⟨hcell, hout⟩ := h.pending t a x ht
  have htail := h.tail
  have hchain := h.chain
  rcases List.eq_nil_or_concat cells with rfl | ⟨front, ⟨b, y⟩, rfl⟩
  · have hhead : s.head = none := hchain.eq_none_iff.mpr rfl
    have htail : s.tail = none := htail
    refine ⟨s.heap, some a, some a, ?_, .cons hcell .nil, rfl, fun _ _ => rfl⟩
    simp [TinyQueue.link, hhead, htail]
  · rw [List.concat_eq_append] at hchain htail hout ⊢
    have htail : s.tail = some b := by simpa using htail
    obtain ⟨next, hlast⟩ := hchain.allocated (b, y) (by simp)
    have hnext : TinyQueue.link a s = .ok { s with
        heap := Function.update s.heap b (some ⟨y, some a⟩)
        tail := some a } := by
      simp [TinyQueue.link, htail, hlast]
    refine ⟨_, s.head, some a, hnext, ?_, rfl, fun d hd => Function.update_of_ne ?_ _ _⟩
    · rw [List.append_assoc]
      exact hchain.concat hcell hout
    · rintro rfl
      simp at hd

theorem Queued.linked (h : Queued s cells) (ht : (s.place t).Pending a x) {s₁ : State τ α}
    (hlink : TinyQueue.link a s = .ok s₁) :
    Queued (TinyQueue.moveTo t .linked { s₁ with pushed := s₁.pushed ++ [x] })
      (cells ++ [(a, x)]) := by
  obtain ⟨heap, head, tail, hok, hchain, rfl, hsame⟩ := h.link ht
  obtain rfl := Except.ok.inj (hok.symm.trans hlink)
  have hold : ∀ u b y, (Function.update s.place t .linked u).Pending b y →
      u ≠ t ∧ (s.place u).Pending b y := by
    intro u b y hpending
    rcases eq_or_ne u t with rfl | hne
    · rw [Function.update_self] at hpending
      rcases hpending with heq | heq <;> cases heq
    · rw [Function.update_of_ne hne] at hpending
      exact ⟨hne, hpending⟩
  refine ⟨hchain, by simp [TinyQueue.moveTo], ?_, fun u b y hpending => ?_, ?_⟩
  · simp [TinyQueue.moveTo, ← h.fifo]
  · obtain ⟨hne, hold⟩ := hold u b y hpending
    obtain ⟨hcell, hnot⟩ := h.pending u b y hold
    refine ⟨(hsame b hnot).trans hcell, ?_⟩
    rw [List.map_append, List.mem_append]
    rintro (hin | hlast)
    · exact hnot hin
    · obtain rfl := List.mem_singleton.mp hlast
      exact hne (h.own u t b y x hold ht)
  · intro u v b y z hu hv
    exact h.own u v b y z (hold u b y hu).2 (hold v b z hv).2

omit [DecidableEq τ] in
theorem Queued.take (h : Queued s cells) (hhead : s.head ≠ none) :
    ∃ a x rest heap head tail, cells = (a, x) :: rest ∧
      TinyQueue.take s = .ok (x, { s with heap, head, tail }) ∧
      Chain heap head rest ∧ tail = rest.getLast?.map Prod.fst ∧
      ∀ b, b ≠ a → heap b = s.heap b := by
  obtain ⟨a, ha⟩ := Option.ne_none_iff_exists'.mp hhead
  have hnodup := h.chain.nodup
  have htail := h.tail
  obtain ⟨x, next, rest, rfl, hcell, hrest⟩ := (ha ▸ h.chain).uncons
  refine ⟨a, x, rest, Function.update s.heap a none, next, rest.getLast?.map Prod.fst, rfl, ?_,
    hrest, rfl, fun b hb => Function.update_of_ne hb _ _⟩
  rcases List.eq_nil_or_concat rest with rfl | ⟨front, ⟨b, y⟩, rfl⟩
  · obtain rfl : next = none := hrest.eq_none_iff.mpr rfl
    simp only [List.getLast?_singleton, Option.map_some] at htail
    simp [TinyQueue.take, ha, hcell, htail]
  · rw [List.concat_eq_append] at htail hnodup ⊢
    have htail : s.tail = some b := by simpa [List.getLast?_cons] using htail
    have hne : a ≠ b := by
      rintro rfl
      simp at hnodup
    simp [TinyQueue.take, ha, hcell, htail, hne]

theorem Queued.taken (h : Queued s cells) (hhead : s.head ≠ none) {s₁ : State τ α}
    (htake : TinyQueue.take s = .ok (x, s₁)) :
    ∃ a rest, cells = (a, x) :: rest ∧
      Queued (TinyQueue.moveTo t (.taken x) { s₁ with popped := s₁.popped ++ [x] }) rest := by
  obtain ⟨a, y, rest, heap, head, tail, rfl, hok, hchain, htail, hsame⟩ := h.take hhead
  obtain ⟨rfl, rfl⟩ := Prod.mk.inj (Except.ok.inj (hok.symm.trans htake))
  have htaken : Queued { s with heap, head, tail, popped := s.popped ++ [y] } rest := by
    refine ⟨hchain, htail, ?_, fun u b z hpending => ?_, h.own⟩
    · simp [← h.fifo]
    · obtain ⟨hcell, hnot⟩ := h.pending u b z hpending
      rw [List.map_cons, List.mem_cons, not_or] at hnot
      exact ⟨(hsame b hnot.1).trans hcell, hnot.2⟩
  refine ⟨a, rest, rfl, htaken.moveTo fun b z hpending => ?_⟩
  rcases hpending with heq | heq <;> cases heq

theorem Queued.signalled (h : Queued s cells) {woken : List τ} :
    Queued { s with place := fun u =>
      if u ∈ woken then .woken else if u = t then .outside else s.place u } cells := by
  have hold : ∀ u a x, Place.Pending (if u ∈ woken then .woken else if u = t then .outside
      else s.place u) a x → (s.place u).Pending a x := by
    intro u a x hpending
    split at hpending
    · simp [Place.Pending] at hpending
    · split at hpending
      · simp [Place.Pending] at hpending
      · exact hpending
  refine ⟨h.chain, h.tail, h.fifo,
    fun u a x hpending => h.pending u a x (hold u a x hpending), ?_⟩
  intro u v a x y hu hv
  exact h.own u v a x y (hold u a x hu) (hold v a y hv)

omit [DecidableEq τ] in
theorem queued_create : Queued (tinyQueueCreate : State τ α) [] := by
  refine ⟨.nil, rfl, rfl, fun t a x hpending => ?_, fun t u a x y hpending => ?_⟩
  · simp [Place.Pending, tinyQueueCreate] at hpending
  · simp [Place.Pending, tinyQueueCreate] at hpending

/-- No step that is possible follows a NULL pointer or one to a freed node. -/
theorem Queued.progress (h : Queued s cells) (hpossible : Possible s l) :
    ∃ s', execute s l = .ok s' := by
  cases l with
  | push t data newNode => cases newNode <;> exact ⟨_, rfl⟩
  | pop t | signal t woken | wake t => exact ⟨_, rfl⟩
  | lock t => cases ht : s.place t <;> simp [execute, ht]
  | unlock t => cases ht : s.place t <;> simp [execute, ht]
  | act t =>
      simp only [Possible] at hpossible
      cases ht : s.place t <;> simp only [ht, Place.InSection] at hpossible
      · rename_i a data
        obtain ⟨heap, head, tail, hlink, -⟩ := h.link (t := t) (a := a) (x := data) (.inr ht)
        simp [execute, ht, hlink, bind, Except.bind, pure, Except.pure]
      · simp only [execute, ht]
        split
        · exact ⟨_, rfl⟩
        · rename_i hhead
          obtain ⟨a, x, rest, heap, head, tail, -, htake, -⟩ := h.take hhead
          simp [htake, bind, Except.bind, pure, Except.pure]

omit [DecidableEq τ] in
theorem Excludes.holder (h : Excludes s) (ht : (s.place t).Holds) {v : τ}
    (hv : (s.place v).Holds) : v = t :=
  Option.some.inj ((h.mutex v hv).symm.trans (h.mutex t ht))

theorem Excludes.moveTo (h : Excludes s) {s₁ : State τ α} (hplace : s₁.place = s.place)
    {p : Place α} (hself : p.Holds → s₁.mutex = some t)
    (hothers : s₁.mutex = s.mutex ∨ s.mutex = none ∨ (s.place t).Holds) :
    Excludes (TinyQueue.moveTo t p s₁) := by
  constructor
  intro u hu
  rw [moveTo_place, hplace] at hu
  rcases eq_or_ne u t with rfl | hne
  · rw [Function.update_self] at hu
    exact hself hu
  · rw [Function.update_of_ne hne] at hu
    rcases hothers with hsame | hfree | ht
    · exact hsame.trans (h.mutex u hu)
    · simp [h.mutex u hu] at hfree
    · exact absurd (h.holder ht hu) hne

theorem excludes_step (h : Excludes s) (hqueued : Queued s cells) (hmoved : Moved s l s') :
    Excludes s' := by
  cases hmoved with
  | noMemory => exact h
  | push | pop | wake =>
      apply h.moveTo
      · rfl
      · simp [Place.Holds, Place.InSection, Place.AtUnlock]
      · exact .inl rfl
  | lockPush t a data hmutex =>
      apply h.moveTo
      · rfl
      · exact fun _ => rfl
      · exact .inr (.inl hmutex)
  | lockPop t hmutex =>
      apply h.moveTo
      · rfl
      · exact fun _ => rfl
      · exact .inr (.inl hmutex)
  | link t a data s₁ ht hlink =>
      obtain ⟨heap, head, tail, hok, -⟩ := hqueued.link (.inr ht)
      obtain rfl := Except.ok.inj (hok.symm.trans hlink)
      apply h.moveTo
      · rfl
      · exact fun _ => h.mutex t (by simp [ht, Place.Holds, Place.InSection])
      · exact .inl rfl
  | take t data s₁ ht hhead htake =>
      obtain ⟨a, x, rest, heap, head, tail, -, hok, -⟩ := hqueued.take hhead
      obtain ⟨rfl, rfl⟩ := Prod.mk.inj (Except.ok.inj (hok.symm.trans htake))
      apply h.moveTo
      · rfl
      · exact fun _ => h.mutex t (by simp [ht, Place.Holds, Place.InSection])
      · exact .inl rfl
  | wait t ht =>
      apply h.moveTo
      · rfl
      · simp [Place.Holds, Place.InSection, Place.AtUnlock]
      · exact .inr (.inr (by simp [ht, Place.Holds, Place.InSection]))
  | unlockPush t ht | unlockPop t _ ht =>
      apply h.moveTo
      · rfl
      · simp [Place.Holds, Place.InSection, Place.AtUnlock]
      · exact .inr (.inr (by simp [ht, Place.Holds, Place.AtUnlock]))
  | signal t woken ht hwoken =>
      constructor
      intro u hu
      dsimp only at hu
      split at hu
      · simp [Place.Holds, Place.InSection, Place.AtUnlock] at hu
      · split at hu
        · simp [Place.Holds, Place.InSection, Place.AtUnlock] at hu
        · exact h.mutex u hu

theorem Backed.moveTo (h : Backed s cells) {s₁ : State τ α} (hplace : s₁.place = s.place)
    {p : Place α} (hp : p ≠ .waiting) (hcredit : (s.place t).Credit → p.Credit) :
    Backed (TinyQueue.moveTo t p s₁) cells := by
  constructor
  intro u hu
  have hwaiting : ∃ u, s.place u = .waiting := by
    rw [moveTo_place, hplace] at hu
    rcases eq_or_ne u t with rfl | hne
    · rw [Function.update_self] at hu
      exact absurd hu hp
    · rw [Function.update_of_ne hne] at hu
      exact ⟨u, hu⟩
  obtain ⟨w, hw⟩ := hwaiting
  obtain ⟨threads, hnodup, hall, hle⟩ := h.matched w hw
  refine ⟨threads, hnodup, fun v hv => ?_, hle⟩
  rw [moveTo_place, hplace]
  rcases eq_or_ne v t with rfl | hne
  · rw [Function.update_self]
    exact hcredit (hall v hv)
  · rw [Function.update_of_ne hne]
    exact hall v hv

theorem Backed.linked (h : Backed s cells) {s₁ : State τ α} (hplace : s₁.place = s.place)
    (ht : ¬ (s.place t).Credit) (c : Nat × α) :
    Backed (TinyQueue.moveTo t .linked s₁) (cells ++ [c]) := by
  constructor
  intro u hu
  rw [moveTo_place, hplace] at hu
  have hne : u ≠ t := by
    rintro rfl
    simp at hu
  rw [Function.update_of_ne hne] at hu
  obtain ⟨threads, hnodup, hall, hle⟩ := h.matched u hu
  have hnot : t ∉ threads := fun hmem => ht (hall t hmem)
  refine ⟨t :: threads, List.nodup_cons.mpr ⟨hnot, hnodup⟩, fun v hv => ?_, by simpa using hle⟩
  rw [moveTo_place, hplace]
  rcases List.mem_cons.mp hv with rfl | hmem
  · simp [Place.Credit]
  · have hvt : v ≠ t := by
      rintro rfl
      exact hnot hmem
    rw [Function.update_of_ne hvt]
    exact hall v hmem

theorem Backed.taken {c : Nat × α} (h : Backed s (c :: cells)) {s₁ : State τ α}
    (hplace : s₁.place = s.place) : Backed (TinyQueue.moveTo t (.taken x) s₁) cells := by
  constructor
  intro u hu
  rw [moveTo_place, hplace] at hu
  have hne : u ≠ t := by
    rintro rfl
    simp at hu
  rw [Function.update_of_ne hne] at hu
  obtain ⟨threads, hnodup, hall, hle⟩ := h.matched u hu
  refine ⟨threads.erase t, hnodup.erase t, fun v hv => ?_, ?_⟩
  · obtain ⟨hvt, hmem⟩ := hnodup.mem_erase_iff.mp hv
    rw [moveTo_place, hplace, Function.update_of_ne hvt]
    exact hall v hmem
  · have herase := List.le_length_erase (a := t) (l := threads)
    rw [List.length_cons] at hle
    omega

/-- The credit of the thread that signals goes to one that it wakes. -/
theorem Backed.signalled (h : Backed s cells) {woken : List τ}
    (hwoken : ∀ u ∈ woken, s.place u = .waiting)
    (hsome : (∃ u, s.place u = .waiting) → woken ≠ []) :
    Backed { s with place := fun u =>
      if u ∈ woken then .woken else if u = t then .outside else s.place u } cells := by
  constructor
  intro u hu
  have hwaiting : ∃ u, s.place u = .waiting := by
    dsimp only at hu
    split at hu
    · cases hu
    · split at hu
      · cases hu
      · exact ⟨u, hu⟩
  obtain ⟨w, hw⟩ := List.exists_mem_of_ne_nil _ (hsome hwaiting)
  obtain ⟨threads, hnodup, hall, hle⟩ := h.matched w (hwoken w hw)
  have hnot : w ∉ threads := by
    intro hmem
    have hcredit := hall w hmem
    simp [hwoken w hw, Place.Credit] at hcredit
  refine ⟨w :: threads.erase t, ?_, fun v hv => ?_, ?_⟩
  · exact List.nodup_cons.mpr ⟨fun hmem => hnot (List.mem_of_mem_erase hmem), hnodup.erase t⟩
  · rcases List.mem_cons.mp hv with rfl | hmem
    · simp [hw, Place.Credit]
    · obtain ⟨hvt, hmem⟩ := hnodup.mem_erase_iff.mp hmem
      dsimp only
      rw [if_neg hvt]
      split
      · simp [Place.Credit]
      · exact hall v hmem
  · have herase := List.le_length_erase (a := t) (l := threads)
    rw [List.length_cons]
    omega

theorem backed_step (h : Queued s cells) (hbacked : Backed s cells) (hmoved : Moved s l s') :
    ∃ cells', Queued s' cells' ∧ Backed s' cells' := by
  cases hmoved with
  | noMemory => exact ⟨cells, h, hbacked⟩
  | push t data a ht ha =>
      refine ⟨cells, h.allocate ht ha, ?_⟩
      apply hbacked.moveTo
      · rfl
      · simp
      · simp [ht, Place.Credit]
  | pop t ht =>
      refine ⟨cells, h.moveTo fun a x hpending => by simp [Place.Pending] at hpending, ?_⟩
      apply hbacked.moveTo
      · rfl
      · simp
      · simp [ht, Place.Credit]
  | lockPush t a data hmutex ht =>
      refine ⟨cells, (h.setMutex (some t)).moveTo fun b y hpending => ?_, ?_⟩
      · rcases hpending with heq | heq
        · cases heq
        · obtain ⟨rfl, rfl⟩ := Place.linking.inj heq
          exact .inl ht
      · apply hbacked.moveTo
        · rfl
        · simp
        · simp [ht, Place.Credit]
  | lockPop t =>
      refine ⟨cells, (h.setMutex (some t)).moveTo fun a x hpending => by
        simp [Place.Pending] at hpending, ?_⟩
      apply hbacked.moveTo
      · rfl
      · simp
      · simp [Place.Credit]
  | link t a data s₁ ht hlink =>
      refine ⟨_, h.linked (.inr ht) hlink, ?_⟩
      obtain ⟨heap, head, tail, hok, -⟩ := h.link (.inr ht)
      obtain rfl := Except.ok.inj (hok.symm.trans hlink)
      apply hbacked.linked
      · rfl
      · simp [ht, Place.Credit]
  | take t data s₁ ht hhead htake =>
      obtain ⟨a, rest, rfl, htaken⟩ := h.taken (t := t) hhead htake
      refine ⟨rest, htaken, ?_⟩
      obtain ⟨_, _, _, heap, head, tail, -, hok, -⟩ := h.take hhead
      obtain ⟨rfl, rfl⟩ := Prod.mk.inj (Except.ok.inj (hok.symm.trans htake))
      apply hbacked.taken
      rfl
  | wait t ht hhead =>
      obtain rfl : cells = [] := h.chain.eq_none_iff.mp hhead
      refine ⟨[], (h.setMutex none).moveTo fun a x hpending => by
        simp [Place.Pending] at hpending, ⟨fun _ _ => ⟨[], List.nodup_nil, by simp, by simp⟩⟩⟩
  | unlockPush t ht =>
      refine ⟨cells, (h.setMutex none).moveTo fun a x hpending => by
        simp [Place.Pending] at hpending, ?_⟩
      apply hbacked.moveTo
      · rfl
      · simp
      · simp [Place.Credit]
  | unlockPop t data ht =>
      refine ⟨cells, (h.setMutex none).moveTo fun a x hpending => by
        simp [Place.Pending] at hpending, ?_⟩
      apply hbacked.moveTo
      · rfl
      · simp
      · simp [ht, Place.Credit]
  | signal t woken ht hwoken hsome => exact ⟨cells, h.signalled, hbacked.signalled hwoken hsome⟩
  | wake t ht =>
      refine ⟨cells, h.moveTo fun a x hpending => by simp [Place.Pending] at hpending, ?_⟩
      apply hbacked.moveTo
      · rfl
      · simp
      · simp [ht, Place.Credit]

/-- What holds in every state: the list is in order, the mutex excludes, and values in
the queue are matched by threads. -/
structure Sound (s : State τ α) : Prop where
  backed : ∃ cells, Queued s cells ∧ Backed s cells
  excludes : Excludes s

omit [DecidableEq τ] in
theorem sound_create : Sound (tinyQueueCreate : State τ α) := by
  refine ⟨⟨[], queued_create, ⟨fun u hu => by simp [tinyQueueCreate] at hu⟩⟩, ⟨fun t ht => ?_⟩⟩
  simp [tinyQueueCreate, Place.Holds, Place.InSection, Place.AtUnlock] at ht

theorem Sound.step (h : Sound s) (hstep : Step s l s') : Sound s' := by
  obtain ⟨⟨cells, hqueued, hbacked⟩, hexcludes⟩ := h
  have hmoved := moved_of_step hstep
  exact ⟨backed_step hqueued hbacked hmoved, excludes_step hexcludes hqueued hmoved⟩

theorem sound_of_run {trs : List (Transition (State τ α) (Label τ α))}
    (h : Run Step (tinyQueueCreate : State τ α) trs s) :
    (∀ tr ∈ trs, Sound tr.before) ∧ Sound s := by
  have hkeep : ∀ (a : State τ α) l b, Sound a → True → Step a l b → Sound b :=
    fun a l b ha _ hstep => ha.step hstep
  obtain ⟨hall, hlast⟩ := h.invariant hkeep sound_create fun _ _ => trivial
  exact ⟨fun tr htr => (hall tr htr).1, hlast⟩

/-- The queue holds a value, the mutex is free and a thread waits, but no thread has
been woken or is about to signal. -/
structure LostWakeup (s : State τ α) : Prop where
  nonempty : s.head ≠ none
  free : s.mutex = none
  waits : ∃ t, s.place t = .waiting
  unwoken : ∀ t, s.place t ≠ .woken
  silent : ∀ t, s.place t ≠ .signalling

theorem tiny_queue_no_lost_wakeup {trs : List (Transition (State τ α) (Label τ α))}
    (h : Run Step (tinyQueueCreate : State τ α) trs s) : ¬ LostWakeup s := by
  intro hlost
  obtain ⟨-, ⟨cells, hqueued, hbacked⟩, hexcludes⟩ := sound_of_run h
  obtain ⟨w, hw⟩ := hlost.waits
  obtain ⟨threads, -, hall, hle⟩ := hbacked.matched w hw
  have hcells : cells ≠ [] := fun hnil => hlost.nonempty (hqueued.chain.eq_none_iff.mpr hnil)
  obtain ⟨t, ht⟩ : ∃ t, t ∈ threads := by
    refine List.exists_mem_of_ne_nil _ ?_
    rintro rfl
    exact hcells (List.eq_nil_of_length_eq_zero (Nat.le_zero.mp hle))
  have hcredit := hall t ht
  have hfree : ¬ (s.place t).Holds := by
    intro hholds
    have hmutex := hexcludes.mutex t hholds
    simp [hlost.free] at hmutex
  cases hplace : s.place t <;> simp only [hplace, Place.Credit] at hcredit
  · exact hfree (by simp [hplace, Place.Holds, Place.AtUnlock])
  · exact hlost.silent t hplace
  · exact hfree (by simp [hplace, Place.Holds, Place.InSection])
  · exact hlost.unwoken t hplace

instance (p : Place α) : Decidable p.AtLock :=
  match p with
  | .pushing _ _ | .popping | .woken => isTrue trivial
  | .outside | .linking _ _ | .linked | .signalling | .testing | .waiting | .taken _ => isFalse id

instance (p : Place α) : Decidable p.InSection :=
  match p with
  | .linking _ _ | .testing => isTrue trivial
  | .outside | .pushing _ _ | .linked | .signalling | .popping | .waiting | .woken | .taken _ =>
      isFalse id

instance (p : Place α) : Decidable p.AtUnlock :=
  match p with
  | .linked | .taken _ => isTrue trivial
  | .outside | .pushing _ _ | .linking _ _ | .signalling | .popping | .testing | .waiting
  | .woken => isFalse id

instance [Fintype τ] [DecidableEq α] (s : State τ α) (l : Label τ α) : Decidable (Possible s l) :=
  match l with
  | .push _ _ _ => inferInstanceAs (Decidable (_ ∧ ∀ a ∈ _, _))
  | .pop _ => inferInstanceAs (Decidable (_ = _))
  | .lock _ => inferInstanceAs (Decidable (_ ∧ _))
  | .act t => inferInstanceAs (Decidable (s.place t).InSection)
  | .unlock t => inferInstanceAs (Decidable (s.place t).AtUnlock)
  | .signal _ _ => inferInstanceAs (Decidable (_ ∧ (∀ u ∈ _, _) ∧ (_ → _)))
  | .wake _ => inferInstanceAs (Decidable (_ = _))

end Threads

/-- Thread 2 waits; threads 0 and 1 push, and thread 2 is woken and pops. -/
def pushTwicePopOnce : List (Label (Fin 3) Nat) :=
  [.pop 2, .lock 2, .act 2, .push 0 50 (some 7), .push 1 60 (some 8), .lock 0, .act 0, .unlock 0,
    .lock 1, .act 1, .unlock 1, .signal 0 [2], .lock 2, .act 2, .unlock 2]

theorem tiny_queue_no_lost_wakeup_push_twice :
    ∃ trs s, replay (attempt Possible execute) (tinyQueueCreate : State (Fin 3) Nat)
        (pushTwicePopOnce.take 11) = some (trs, s) ∧
      s.place 2 = .waiting ∧ s.head = some 7 ∧ s.mutex = none ∧ ¬ LostWakeup s := by
  obtain ⟨trs, s, hs, hplace, hhead, hmutex⟩ :
      ∃ trs s, replay (attempt Possible execute) (tinyQueueCreate : State (Fin 3) Nat)
          (pushTwicePopOnce.take 11) = some (trs, s) ∧
        s.place 2 = .waiting ∧ s.head = some 7 ∧ s.mutex = none :=
    ⟨_, _, rfl, rfl, rfl, rfl⟩
  exact ⟨trs, s, hs, hplace, hhead, hmutex, tiny_queue_no_lost_wakeup (run_of_attempts hs)⟩

end GwWeb.TinyQueue
