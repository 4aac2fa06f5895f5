import GwWeb.ListHead

/-!
Several lists of `list.h` in one memory, over any sequence of their operations.
The nodes come from `malloc` and go back to `free`; a node is in one list at most.
-/

namespace GwWeb.ListRuns

open RingLists
open ListHead
open TransitionRuns

/-- What the memory stands for: the nodes of the list at each head. -/
structure Lists where
  allocated : Nat → Bool
  contents : Nat → List Nat

/-- An operation on one of the lists, or on the memory of its nodes. -/
inductive ListOp where
  | malloc (a : Nat) (next prev : Option Nat)
  | addTail (a head : Nat)
  | unlink (p : Nat → Bool) (head : Nat)
  | free (a : Nat)

/-- A head, or a node that is in a list. -/
def Lists.InUse (heads : List Nat) (s : Lists) (a : Nat) : Prop :=
  ∃ head ∈ heads, a ∈ head :: s.contents head

/-- `malloc` returns free memory, and only nodes in no list are added and freed. -/
def Possible (heads : List Nat) (s : Lists) : ListOp → Prop
  | .malloc a _ _ => s.allocated a = false
  | .addTail a head => head ∈ heads ∧ s.allocated a = true ∧ ¬ s.InUse heads a
  | .unlink _ head => head ∈ heads
  | .free a => s.allocated a = true ∧ ¬ s.InUse heads a

/-- What an operation means for the lists as sequences. -/
def Lists.apply (s : Lists) : ListOp → Lists
  | .malloc a _ _ => { s with allocated := Function.update s.allocated a true }
  | .addTail a head =>
      { s with contents := Function.update s.contents head (s.contents head ++ [a]) }
  | .unlink p head =>
      { s with contents := Function.update s.contents head ((s.contents head).eraseP p) }
  | .free a => { s with allocated := Function.update s.allocated a false }

/-- An operation in memory. `malloc` leaves whatever stood there before. -/
def execute (fuel : Nat) (h : Heap) : ListOp → Option Heap
  | .malloc a next prev =>
      some { allocated := Function.update h.allocated a true
             next := Function.update h.next a next
             prev := Function.update h.prev a prev }
  | .addTail a head => listAddTail h (some a) (some head)
  | .unlink p head => (listForEachSafe p head fuel h).map Walked.heap
  | .free a =>
      if h.allocated a then some { h with allocated := Function.update h.allocated a false }
      else none

/-- The rings in memory are the lists, and share no node. -/
structure Represents (heads : List Nat) (h : Heap) (s : Lists) : Prop where
  rings : ∀ head ∈ heads, Ring h head (s.contents head)
  apart : ∀ head ∈ heads, ∀ head' ∈ heads, head ≠ head' →
    ∀ a ∈ head :: s.contents head, a ∉ head' :: s.contents head'
  allocated : h.allocated = s.allocated

variable {heads : List Nat} {h : Heap} {s : Lists}

theorem Represents.allocated_of_inUse (hrep : Represents heads h s) {a : Nat}
    (ha : s.InUse heads a) : s.allocated a = true := by
  obtain ⟨head, hhead, hmem⟩ := ha
  rw [← hrep.allocated]
  exact (hrep.rings head hhead).allocated a hmem

theorem Represents.of_unused (hrep : Represents heads h s) {a : Nat} {h' : Heap}
    {allocated : Nat → Bool} (ha : ¬ s.InUse heads a) (hnext : ∀ b, b ≠ a → h'.next b = h.next b)
    (hprev : ∀ b, b ≠ a → h'.prev b = h.prev b)
    (hother : ∀ b, b ≠ a → h'.allocated b = h.allocated b) (hsame : h'.allocated = allocated) :
    Represents heads h' { s with allocated } := by
  refine ⟨fun head hhead => ?_, hrep.apart, hsame⟩
  have hne : ∀ b ∈ head :: s.contents head, b ≠ a := by
    rintro b hb rfl
    exact ha ⟨head, hhead, hb⟩
  exact (hrep.rings head hhead).congr (fun b hb => hnext b (hne b hb))
    (fun b hb => hprev b (hne b hb)) fun b hb => hother b (hne b hb)

theorem Represents.of_frame (hrep : Represents heads h s) {head : Nat} (hhead : head ∈ heads)
    {h' : Heap} {as touched : List Nat} (hring : Ring h' head as) (hframe : Frame h h' touched)
    (htouched : ∀ a ∈ touched, a ∈ head :: s.contents head ∨ ¬ s.InUse heads a)
    (has : ∀ a ∈ as, a ∈ s.contents head ∨ ¬ s.InUse heads a) :
    Represents heads h' { s with contents := Function.update s.contents head as } := by
  have hleft : ∀ head' ∈ heads, head' ≠ head → ∀ a ∈ head' :: s.contents head',
      a ∉ head :: s.contents head ∧ s.InUse heads a := fun head' hhead' hne a ha =>
    ⟨hrep.apart head' hhead' head hhead hne a ha, head', hhead', ha⟩
  refine ⟨fun head' hhead' => ?_, fun x hx y hy hne a ha hb => ?_, ?_⟩
  · by_cases heq : head' = head
    · subst heq
      simpa using hring
    · simp only [Function.update_of_ne heq]
      refine (hrep.rings head' hhead').of_frame hframe fun a ha hmem => ?_
      obtain ⟨hout, hin⟩ := hleft head' hhead' heq a ha
      exact (htouched a hmem).elim hout fun hnot => hnot hin
  · by_cases hxhead : x = head
    · subst hxhead
      simp only [Function.update_self, Function.update_of_ne hne.symm] at ha hb
      obtain ⟨hout, hin⟩ := hleft y hy hne.symm a hb
      rcases List.mem_cons.mp ha with rfl | ha
      · exact hout List.mem_cons_self
      · exact (has a ha).elim (fun h => hout (List.mem_cons_of_mem _ h)) fun hnot => hnot hin
    · simp only [Function.update_of_ne hxhead] at ha
      by_cases hyhead : y = head
      · subst hyhead
        simp only [Function.update_self] at hb
        obtain ⟨hout, hin⟩ := hleft x hx hne a ha
        rcases List.mem_cons.mp hb with rfl | hb
        · exact hout List.mem_cons_self
        · exact (has a hb).elim (fun h => hout (List.mem_cons_of_mem _ h)) fun hnot => hnot hin
      · simp only [Function.update_of_ne hyhead] at hb
        exact hrep.apart x hx y hy hne a ha hb
  · rw [hframe.allocated]
    exact hrep.allocated

/-- One operation in memory does what it does to the lists. -/
theorem execute_refines (hrep : Represents heads h s) {op : ListOp}
    (hpossible : Possible heads s op) {fuel : Nat}
    (hfuel : ∀ head ∈ heads, (s.contents head).length < fuel) :
    ∃ h', execute fuel h op = some h' ∧ Represents heads h' (s.apply op) := by
  cases op with
  | malloc a next prev =>
      have ha : ¬ s.InUse heads a := by
        intro hin
        have hallocated := hrep.allocated_of_inUse hin
        rw [hpossible] at hallocated
        cases hallocated
      refine ⟨_, rfl, hrep.of_unused ha (fun b hb => ?_) (fun b hb => ?_) (fun b hb => ?_) ?_⟩
      · exact Function.update_of_ne hb _ _
      · exact Function.update_of_ne hb _ _
      · exact Function.update_of_ne hb _ _
      · rw [← hrep.allocated]
  | addTail a head =>
      obtain ⟨hhead, hallocated, hunused⟩ := hpossible
      have hnew : a ∉ head :: s.contents head := fun hmem => hunused ⟨head, hhead, hmem⟩
      rw [← hrep.allocated] at hallocated
      obtain ⟨h', hadd, hring, hframe⟩ := listAddTail_spec (hrep.rings head hhead) hnew hallocated
      refine ⟨h', hadd, hrep.of_frame hhead hring hframe (fun b hb => ?_) fun b hb => ?_⟩
      · rcases List.mem_cons.mp hb with rfl | hb
        · exact .inr hunused
        · exact .inl hb
      · rcases List.mem_append.mp hb with hb | hb
        · exact .inl hb
        · exact .inr (List.mem_singleton.mp hb ▸ hunused)
  | unlink p head =>
      obtain ⟨h', hwalk, hring, hframe⟩ :=
        listForEachSafe_spec p (hrep.rings head hpossible) (hfuel head hpossible)
      rw [FirstMatch.unlinkLoop_list] at hring
      refine ⟨h', by simp [execute, hwalk], hrep.of_frame hpossible hring hframe
        (fun b hb => .inl hb) fun b hb => .inl (List.mem_of_mem_eraseP hb)⟩
  | free a =>
      obtain ⟨hallocated, hunused⟩ := hpossible
      rw [← hrep.allocated] at hallocated
      refine ⟨{ h with allocated := Function.update h.allocated a false },
        by simp [execute, hallocated], hrep.of_unused hunused (fun _ _ => rfl) (fun _ _ => rfl)
          (fun b hb => Function.update_of_ne hb _ _) ?_⟩
      rw [← hrep.allocated]

theorem length_apply_le (s : Lists) (op : ListOp) (head : Nat) :
    ((s.apply op).contents head).length ≤ (s.contents head).length + 1 := by
  cases op with
  | malloc a next prev => exact Nat.le_succ _
  | free a => exact Nat.le_succ _
  | addTail a head' =>
      rcases eq_or_ne head head' with rfl | hne
      · simp [Lists.apply]
      · simp [Lists.apply, Function.update_of_ne hne]
  | unlink p head' =>
      rcases eq_or_ne head head' with rfl | hne
      · have hle := List.length_eraseP_le (p := p) (l := s.contents head)
        simp only [Lists.apply, Function.update_self]
        omega
      · simp [Lists.apply, Function.update_of_ne hne]

/-- An operation that may happen next. -/
def Step (heads : List Nat) (s : Lists) (op : ListOp) (s' : Lists) : Prop :=
  Possible heads s op ∧ s' = s.apply op

theorem run_refines {trs : List (Transition Lists ListOp)} {t : Lists}
    (hrun : Run (Step heads) s trs t) (hrep : Represents heads h s) {fuel : Nat}
    (hfuel : ∀ head ∈ heads, (s.contents head).length + trs.length < fuel) :
    (∃ h', (trs.map fun tr => tr.label).foldlM (execute fuel) h = some h' ∧
      Represents heads h' t) ∧ ∀ head ∈ heads, (t.contents head).length < fuel := by
  induction hrun generalizing h with
  | nil s =>
      exact ⟨⟨h, rfl, hrep⟩, fun head hhead => by simpa using hfuel head hhead⟩
  | @cons a b c op trs hstep _ ih =>
      obtain ⟨hpossible, rfl⟩ := hstep
      have hshort : ∀ head ∈ heads, (a.contents head).length < fuel := fun head hhead => by
        have := hfuel head hhead
        omega
      obtain ⟨h₁, hop, hrep₁⟩ := execute_refines hrep hpossible hshort
      have hfuel₁ : ∀ head ∈ heads, ((a.apply op).contents head).length + trs.length < fuel :=
        fun head hhead => by
          have hgrow := length_apply_le a op head
          have hold := hfuel head hhead
          rw [List.length_cons] at hold
          omega
      obtain ⟨⟨h', hops, hrep'⟩, hlast⟩ := ih hrep₁ hfuel₁
      refine ⟨⟨h', ?_, hrep'⟩, hlast⟩
      rw [List.map_cons, List.foldlM_cons, hop]
      exact hops

/-- `INIT_LIST_HEAD` on every head. -/
def initHeads (h : Heap) (heads : List Nat) : Option Heap :=
  heads.foldlM (fun h head => initListHead h (some head)) h

theorem initHeads_spec (hallocated : ∀ head ∈ heads, h.allocated head = true) :
    ∃ h', initHeads h heads = some h' ∧ h'.allocated = h.allocated ∧
      (∀ a, a ∈ heads → h'.next a = some a ∧ h'.prev a = some a) ∧
      ∀ a, a ∉ heads → h'.next a = h.next a ∧ h'.prev a = h.prev a := by
  induction heads generalizing h with
  | nil => exact ⟨h, rfl, rfl, by simp, fun _ _ => ⟨rfl, rfl⟩⟩
  | cons head heads ih =>
      have hhead := hallocated head List.mem_cons_self
      let h₁ : Heap :=
        { allocated := h.allocated
          next := Function.update h.next head (some head)
          prev := Function.update h.prev head (some head) }
      have hinit : initListHead h (some head) = some h₁ := by
        simp [initListHead, setNext_of_allocated hhead, setPrev, hhead, h₁]
      obtain ⟨h', hlater, hsame, hin, hout⟩ := ih (h := h₁)
        fun a ha => hallocated a (List.mem_cons_of_mem _ ha)
      refine ⟨h', ?_, hsame, fun a ha => ?_, fun a ha => ?_⟩
      · rw [initHeads, List.foldlM_cons, hinit]
        exact hlater
      · by_cases hmem : a ∈ heads
        · exact hin a hmem
        · obtain rfl := (List.mem_cons.mp ha).resolve_right hmem
          simpa [h₁] using hout a hmem
      · obtain ⟨hne, hmem⟩ := not_or.mp (List.mem_cons.not.mp ha)
        simpa [h₁, hne] using hout a hmem

theorem initHeads_represents
    (hallocated : ∀ head ∈ heads, h.allocated head = true) :
    ∃ h', initHeads h heads = some h' ∧
      Represents heads h' { allocated := h.allocated, contents := fun _ => [] } := by
  obtain ⟨h', hinit, hsame, hin, -⟩ := initHeads_spec hallocated
  refine ⟨h', hinit, fun head hhead => ⟨?_, List.nodup_singleton head, fun a ha => ?_⟩,
    fun head _ head' _ hne a ha hb => ?_, hsame⟩
  · exact List.isChain_pair.mpr (hin head hhead)
  · rw [List.mem_singleton.mp ha, hsame]
    exact hallocated head hhead
  · exact hne ((List.mem_singleton.mp ha).symm.trans (List.mem_singleton.mp hb))

/-- Whatever is done to the lists, no pointer that is followed is NULL or free,
and each ring is the list that it stands for. -/
theorem lists_refined (hallocated : ∀ head ∈ heads, h.allocated head = true)
    {trs : List (Transition Lists ListOp)} {t : Lists}
    (hrun : Run (Step heads) { allocated := h.allocated, contents := fun _ => [] } trs t)
    {fuel : Nat} (hfuel : trs.length < fuel) :
    ∃ h₀ h', initHeads h heads = some h₀ ∧
      (trs.map fun tr => tr.label).foldlM (execute fuel) h₀ = some h' ∧ Represents heads h' t ∧
      ∀ head ∈ heads, ∀ p, listForEachEntry p head fuel h' = some ((t.contents head).find? p) := by
  obtain ⟨h₀, hinit, hrep⟩ := initHeads_represents hallocated
  obtain ⟨⟨h', hops, hrep'⟩, hshort⟩ := run_refines hrun hrep fun head _ => by simpa using hfuel
  exact ⟨h₀, h', hinit, hops, hrep', fun head hhead p =>
    listForEachEntry_spec p (hrep'.rings head hhead) (hshort head hhead)⟩

instance (s : Lists) (a : Nat) : Decidable (s.InUse heads a) :=
  inferInstanceAs (Decidable (∃ head ∈ heads, a ∈ head :: s.contents head))

instance (s : Lists) : (op : ListOp) → Decidable (Possible heads s op)
  | .malloc a _ _ => inferInstanceAs (Decidable (s.allocated a = false))
  | .addTail _ _ => inferInstanceAs (Decidable (_ ∧ _ ∧ _))
  | .unlink _ head => inferInstanceAs (Decidable (head ∈ heads))
  | .free _ => inferInstanceAs (Decidable (_ ∧ _))

def attempt (heads : List Nat) (s : Lists) (op : ListOp) : Option Lists :=
  if Possible heads s op then some (s.apply op) else none

theorem step_of_attempt (s : Lists) (op : ListOp) (s' : Lists) (h : attempt heads s op = some s') :
    Step heads s op s' := by
  unfold attempt at h
  split at h
  · rename_i hpossible
    exact ⟨hpossible, (Option.some.inj h).symm⟩
  · cases h

/-- Two nodes in one list and one in another; the first goes and is freed. -/
theorem lists_refined_moves :
    let h : Heap :=
      { allocated := fun a => a < 2, next := fun _ => none, prev := fun _ => none }
    let ops : List ListOp :=
      [.malloc 5 (some 9) none, .addTail 5 0, .malloc 6 none none, .addTail 6 0,
        .malloc 7 none none, .addTail 7 1, .unlink (fun a => a = 5) 0, .free 5]
    ∃ trs t, replay (attempt [0, 1]) { allocated := h.allocated, contents := fun _ => [] } ops =
        some (trs, t) ∧ t.contents 0 = [6] ∧ t.contents 1 = [7] ∧
      ∃ h₀ h', initHeads h [0, 1] = some h₀ ∧
        (trs.map fun tr => tr.label).foldlM (execute 9) h₀ = some h' ∧ Represents [0, 1] h' t ∧
        ∀ head ∈ [0, 1], ∀ p,
          listForEachEntry p head 9 h' = some ((t.contents head).find? p) := by
  intro h ops
  obtain ⟨⟨trs, t⟩, hreplay⟩ : ∃ r, replay (attempt [0, 1])
      { allocated := h.allocated, contents := fun _ => [] } ops = some r := ⟨_, rfl⟩
  refine ⟨trs, t, hreplay, ?_, ?_, lists_refined (by decide) (run_of_replay step_of_attempt hreplay)
    ?_⟩
  · cases hreplay
    decide
  · cases hreplay
    decide
  · cases hreplay
    decide

end GwWeb.ListRuns
