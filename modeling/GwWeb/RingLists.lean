import Mathlib.Data.List.Chain
import Mathlib.Data.List.Nodup
import Mathlib.Logic.Function.Basic
import Mathlib.Tactic.Common

/-!
Doubly linked rings in memory. A ring is named by the address of its head, which
carries no value; the other nodes are listed in the order of their `next` pointers.
-/

namespace RingLists

/-- Memory that holds two pointers at each allocated address; NULL is `none`. -/
structure Heap where
  allocated : Nat → Bool
  next : Nat → Option Nat
  prev : Nat → Option Nat

/-- `p->next`. -/
def getNext (h : Heap) (p : Option Nat) : Option (Option Nat) :=
  p.bind fun a => if h.allocated a then some (h.next a) else none

/-- `p->prev`. -/
def getPrev (h : Heap) (p : Option Nat) : Option (Option Nat) :=
  p.bind fun a => if h.allocated a then some (h.prev a) else none

/-- A store through a pointer; there is none through NULL or into free memory. -/
def setNext (h : Heap) (p x : Option Nat) : Option Heap :=
  p.bind fun a =>
    if h.allocated a then some { h with next := Function.update h.next a x } else none

def setPrev (h : Heap) (p x : Option Nat) : Option Heap :=
  p.bind fun a =>
    if h.allocated a then some { h with prev := Function.update h.prev a x } else none

/-- `b` stands behind `a`. -/
def Linked (h : Heap) (a b : Nat) : Prop := h.next a = some b ∧ h.prev b = some a

instance (h : Heap) (a b : Nat) : Decidable (Linked h a b) := inferInstanceAs (Decidable (_ ∧ _))

/-- A ring of allocated nodes around `head`. -/
structure Ring (h : Heap) (head : Nat) (as : List Nat) : Prop where
  chain : List.IsChain (Linked h) (head :: as ++ [head])
  nodup : (head :: as).Nodup
  allocated : ∀ a ∈ head :: as, h.allocated a = true

variable {h h' : Heap} {head new e : Nat} {as bs : List Nat}

theorem isChain_linked_congr {l : List Nat} (hchain : List.IsChain (Linked h) l)
    (hnext : ∀ a ∈ l.dropLast, h'.next a = h.next a)
    (hprev : ∀ b ∈ l.tail, h'.prev b = h.prev b) : List.IsChain (Linked h') l := by
  induction l with
  | nil => exact List.IsChain.nil
  | cons a l ih =>
      cases l with
      | nil => exact List.IsChain.singleton a
      | cons b l =>
          obtain ⟨hlinked, hrest⟩ := List.isChain_cons_cons.mp hchain
          refine List.isChain_cons_cons.mpr ⟨⟨?_, ?_⟩, ih hrest ?_ ?_⟩
          · rw [hnext a (by simp), hlinked.1]
          · rw [hprev b (by simp), hlinked.2]
          · exact fun c hc => hnext c (List.mem_cons_of_mem _ hc)
          · exact fun c hc => hprev c (List.mem_cons_of_mem _ hc)

theorem Ring.congr (hring : Ring h head as) (hnext : ∀ a ∈ head :: as, h'.next a = h.next a)
    (hprev : ∀ a ∈ head :: as, h'.prev a = h.prev a)
    (hallocated : ∀ a ∈ head :: as, h'.allocated a = h.allocated a) : Ring h' head as := by
  refine ⟨isChain_linked_congr hring.chain ?_ ?_, hring.nodup, ?_⟩
  · intro a ha
    rw [List.dropLast_concat] at ha
    exact hnext a ha
  · intro a ha
    refine hprev a ?_
    simp only [List.cons_append, List.tail_cons, List.mem_append, List.mem_singleton] at ha
    rcases ha with ha | rfl
    · exact List.mem_cons_of_mem _ ha
    · exact List.mem_cons_self
  · intro a ha
    rw [hallocated a ha]
    exact hring.allocated a ha

/-- Only the touched nodes can differ. -/
structure Frame (h h' : Heap) (touched : List Nat) : Prop where
  next : ∀ a, a ∉ touched → h'.next a = h.next a
  prev : ∀ a, a ∉ touched → h'.prev a = h.prev a
  allocated : h'.allocated = h.allocated

theorem Frame.refl (h : Heap) (touched : List Nat) : Frame h h touched :=
  ⟨fun _ _ => rfl, fun _ _ => rfl, rfl⟩

theorem Frame.mono {touched touched' : List Nat} (hframe : Frame h h' touched)
    (hsub : touched ⊆ touched') : Frame h h' touched' :=
  ⟨fun a ha => hframe.next a fun h => ha (hsub h),
    fun a ha => hframe.prev a fun h => ha (hsub h), hframe.allocated⟩

/-- A ring apart from what is touched is still there. -/
theorem Ring.of_frame {touched : List Nat} (hring : Ring h head as)
    (hframe : Frame h h' touched) (hapart : ∀ a ∈ head :: as, a ∉ touched) : Ring h' head as :=
  hring.congr (fun a ha => hframe.next a (hapart a ha)) (fun a ha => hframe.prev a (hapart a ha))
    fun a _ => congrFun hframe.allocated a

/-- The last node before the head, and how a ring grows behind it. -/
theorem Ring.insert {last : Nat} {front : List Nat} (hring : Ring h head as)
    (hsplit : head :: as = front ++ [last]) (hnew : new ∉ head :: as)
    (hallocated : h.allocated new = true)
    (hnext : h'.next = Function.update (Function.update h.next new (some head)) last (some new))
    (hprev : h'.prev = Function.update (Function.update h.prev head (some new)) new (some last))
    (hsame : h'.allocated = h.allocated) : Ring h' head (as ++ [new]) := by
  have hchain := hring.chain
  have hnodup := hring.nodup
  have hhead : new ≠ head := fun heq => hnew (heq ▸ List.mem_cons_self)
  have hlast : new ≠ last := by
    rintro rfl
    exact hnew (hsplit ▸ List.mem_append_right _ (List.mem_singleton_self new))
  have hshape : head :: (as ++ [new]) ++ [head] = front ++ last :: new :: [head] := by
    rw [← List.cons_append, hsplit]
    simp
  refine ⟨?_, ?_, ?_⟩
  · rw [hshape, List.isChain_append_cons_cons]
    have hfront : List.IsChain (Linked h) (front ++ [last]) := by
      rw [hsplit, List.append_assoc] at hchain
      exact (List.isChain_split.mp hchain).1
    refine ⟨isChain_linked_congr hfront ?_ ?_, ⟨?_, ?_⟩, List.isChain_pair.mpr ⟨?_, ?_⟩⟩
    · intro a ha
      rw [List.dropLast_concat] at ha
      have hane : a ≠ last := by
        rintro rfl
        rw [hsplit] at hnodup
        exact (List.nodup_append.mp hnodup).2.2 a ha a (List.mem_singleton_self a) rfl
      have hanew : a ≠ new := by
        rintro rfl
        exact hnew (hsplit ▸ List.mem_append_left _ ha)
      simp [hnext, hane, hanew]
    · intro b hb
      rw [← hsplit, List.tail_cons] at hb
      have hbhead : b ≠ head := by
        rintro rfl
        exact (List.nodup_cons.mp hnodup).1 hb
      have hbnew : b ≠ new := by
        rintro rfl
        exact hnew (List.mem_cons_of_mem _ hb)
      simp [hprev, hbhead, hbnew]
    · simp [hnext]
    · simp [hprev]
    · simp [hnext, hlast]
    · simp [hprev, hhead.symm]
  · rw [← List.cons_append]
    refine List.nodup_append.mpr ⟨hnodup, List.nodup_singleton new, ?_⟩
    rintro a ha b hb rfl
    rw [List.mem_singleton.mp hb] at ha
    exact hnew ha
  · intro a ha
    rw [hsame]
    rw [← List.cons_append] at ha
    rcases List.mem_append.mp ha with ha | ha
    · exact hring.allocated a ha
    · rw [List.mem_singleton.mp ha]
      exact hallocated

theorem Ring.delete {p q : Nat} {front back : List Nat} (hring : Ring h head (as ++ e :: bs))
    (hfront : head :: as = front ++ [p]) (hback : bs ++ [head] = q :: back)
    (hnext : h'.next = Function.update (Function.update h.next p (some q)) e none)
    (hprev : h'.prev = Function.update (Function.update h.prev q (some p)) e none)
    (hsame : h'.allocated = h.allocated) : Ring h' head (as ++ bs) := by
  have hchain := hring.chain
  have hnodup := hring.nodup
  rw [← List.cons_append] at hnodup
  obtain ⟨hnodupas, hnodupbs, hdisjoint⟩ := List.nodup_append.mp hnodup
  obtain ⟨hebs, hnodupbs⟩ := List.nodup_cons.mp hnodupbs
  have heas : e ∉ head :: as := fun h => hdisjoint e h e List.mem_cons_self rfl
  have hbsas : ∀ b ∈ bs, b ∉ head :: as := fun b hb h =>
    hdisjoint b h b (List.mem_cons_of_mem _ hb) rfl
  have hp : p ∈ head :: as := hfront ▸ List.mem_append_right _ (List.mem_singleton_self p)
  have hshape : head :: (as ++ e :: bs) ++ [head] = front ++ p :: e :: q :: back := by
    have hrest : e :: bs ++ [head] = e :: q :: back := by rw [List.cons_append, hback]
    rw [← List.cons_append, hfront, List.append_assoc, hrest]
    simp
  have hshape' : head :: (as ++ bs) ++ [head] = front ++ p :: q :: back := by
    rw [← List.cons_append, hfront, List.append_assoc, hback]
    simp
  have hq : q ∈ bs ∨ q = head := by
    have hmem : q ∈ bs ++ [head] := hback ▸ List.mem_cons_self
    simpa using hmem
  rw [hshape, List.isChain_append_cons_cons] at hchain
  obtain ⟨hleft, -, hright⟩ := hchain
  have hright := (List.isChain_cons_cons.mp hright).2
  refine ⟨?_, ?_, ?_⟩
  · rw [hshape', List.isChain_append_cons_cons]
    refine ⟨isChain_linked_congr hleft ?_ ?_, ⟨?_, ?_⟩, isChain_linked_congr hright ?_ ?_⟩
    · intro a ha
      rw [List.dropLast_concat] at ha
      have hap : a ≠ p := by
        rintro rfl
        rw [hfront] at hnodupas
        exact (List.nodup_append.mp hnodupas).2.2 a ha a (List.mem_singleton_self a) rfl
      have hae : a ≠ e := by
        rintro rfl
        exact heas (hfront ▸ List.mem_append_left _ ha)
      simp [hnext, hap, hae]
    · intro b hb
      rw [← hfront, List.tail_cons] at hb
      have hbq : b ≠ q := by
        rintro rfl
        rcases hq with hq | rfl
        · exact hbsas b hq (List.mem_cons_of_mem _ hb)
        · exact (List.nodup_cons.mp hnodupas).1 hb
      have hbe : b ≠ e := by
        rintro rfl
        exact heas (List.mem_cons_of_mem _ hb)
      simp [hprev, hbq, hbe]
    · have hpe : p ≠ e := by
        rintro rfl
        exact heas hp
      simp [hnext, hpe]
    · have hqe : q ≠ e := by
        rintro rfl
        rcases hq with hq | rfl
        · exact hebs hq
        · exact heas List.mem_cons_self
      simp [hprev, hqe]
    · intro a ha
      rw [← hback, List.dropLast_concat] at ha
      have hap : a ≠ p := by
        rintro rfl
        exact hbsas a ha hp
      have hae : a ≠ e := by
        rintro rfl
        exact hebs ha
      simp [hnext, hap, hae]
    · intro b hb
      rw [List.tail_cons] at hb
      have hnodupback : (q :: back).Nodup := by
        rw [← hback]
        refine List.nodup_append.mpr ⟨hnodupbs, List.nodup_singleton head, ?_⟩
        rintro a ha b hb rfl
        rw [List.mem_singleton.mp hb] at ha
        exact hbsas head ha List.mem_cons_self
      have hbq : b ≠ q := by
        rintro rfl
        exact (List.nodup_cons.mp hnodupback).1 hb
      have hbe : b ≠ e := by
        rintro rfl
        have hmem : b ∈ bs ++ [head] := hback ▸ List.mem_cons_of_mem _ hb
        rcases List.mem_append.mp hmem with hmem | hmem
        · exact hebs hmem
        · rw [List.mem_singleton.mp hmem] at heas
          exact heas List.mem_cons_self
      simp [hprev, hbq, hbe]
  · rw [← List.cons_append]
    refine List.nodup_append.mpr ⟨hnodupas, hnodupbs, ?_⟩
    rintro a ha b hb rfl
    exact hbsas a hb ha
  · intro a ha
    rw [hsame]
    refine hring.allocated a ?_
    rw [← List.cons_append] at ha ⊢
    rcases List.mem_append.mp ha with ha | ha
    · exact List.mem_append_left _ ha
    · exact List.mem_append_right _ (List.mem_cons_of_mem _ ha)

end RingLists
