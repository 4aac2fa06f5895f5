import GwWeb.FirstMatch
import GwWeb.RingLists
import GwWeb.TransitionRuns

/-!
`list.h` in memory: what its functions and loops do to the pointers, against the
lists that the modules below work with. A node is named by the address of its
`list_head`; `list_entry` is left out, as it only adds an offset.
-/

namespace GwWeb.ListHead

open RingLists
open TransitionRuns

/-- `INIT_LIST_HEAD`. -/
def initListHead (h : Heap) (list : Option Nat) : Option Heap := do
  let h ← setNext h list list
  setPrev h list list

/-- `__list_add`. -/
def listAddBetween (h : Heap) (new prev next : Option Nat) : Option Heap := do
  let h ← setPrev h next new
  let h ← setNext h new next
  let h ← setPrev h new prev
  setNext h prev new

def listAddTail (h : Heap) (new head : Option Nat) : Option Heap := do
  let prev ← getPrev h head
  listAddBetween h new prev head

/-- `__list_del`. -/
def listDelBetween (h : Heap) (prev next : Option Nat) : Option Heap := do
  let h ← setPrev h next prev
  setNext h prev next

/-- `list_del`: unlink, then clear both pointers of the entry. -/
def listDel (h : Heap) (entry : Option Nat) : Option Heap := do
  let prev ← getPrev h entry
  let next ← getNext h entry
  let h ← listDelBetween h prev next
  let h ← setNext h entry none
  setPrev h entry none

/-- `list_for_each_entry` with a body that ends the loop at an entry with `p`. -/
def findLoop (p : Nat → Bool) (head : Nat) (h : Heap) : Nat → Option Nat → Option (Option Nat)
  | 0, _ => none
  | fuel + 1, pos =>
      if pos = some head then some none
      else do
        let next ← getNext h pos
        if pos.any p then return pos
        else findLoop p head h fuel next

/-- `list_for_each_entry` with a `return` at the first match. -/
def listForEachEntry (p : Nat → Bool) (head fuel : Nat) (h : Heap) : Option (Option Nat) := do
  let pos ← getNext h (some head)
  findLoop p head h fuel pos

/-- What a loop leaves that deletes an entry: the memory, the last entry it looked
at, and whether it deleted that one. -/
structure Walked where
  heap : Heap
  entry : Option Nat
  found : Bool

/-- `list_for_each_safe` with a body that deletes an entry with `p` and breaks. -/
def safeLoop (p : Nat → Bool) (head : Nat) (h : Heap) :
    Nat → Option Nat → Option Nat → Option Nat → Option Walked
  | 0, _, _, _ => none
  | fuel + 1, pos, n, entry =>
      if pos = some head then some { heap := h, entry, found := false }
      else if pos.any p then do
        let h ← listDel h pos
        return { heap := h, entry := pos, found := true }
      else do
        let next ← getNext h n
        safeLoop p head h fuel n next pos

/-- `list_for_each_safe` with `list_del` and `break` at the first match. -/
def listForEachSafe (p : Nat → Bool) (head fuel : Nat) (h : Heap) : Option Walked := do
  let pos ← getNext h (some head)
  let n ← getNext h pos
  safeLoop p head h fuel pos n none

variable {h h' : Heap} {head : Nat} {as bs : List Nat} {a e new : Nat}

theorem getNext_of_allocated (ha : h.allocated a = true) :
    getNext h (some a) = some (h.next a) := by
  simp [getNext, ha]

theorem getPrev_of_allocated (ha : h.allocated a = true) :
    getPrev h (some a) = some (h.prev a) := by
  simp [getPrev, ha]

theorem setNext_of_allocated (ha : h.allocated a = true) (x : Option Nat) :
    setNext h (some a) x = some { h with next := Function.update h.next a x } := by
  simp [setNext, ha]

theorem setPrev_of_allocated (ha : h.allocated a = true) (x : Option Nat) :
    setPrev h (some a) x = some { h with prev := Function.update h.prev a x } := by
  simp [setPrev, ha]

theorem listAddTail_spec (hring : Ring h head as) (hnew : new ∉ head :: as)
    (hallocated : h.allocated new = true) :
    ∃ h', listAddTail h (some new) (some head) = some h' ∧ Ring h' head (as ++ [new]) ∧
      Frame h h' (new :: head :: as) := by
  obtain ⟨front, last, hsplit⟩ : ∃ front last, head :: as = front ++ [last] :=
    ⟨(head :: as).dropLast, (head :: as).getLast (by simp),
      (List.dropLast_append_getLast (by simp)).symm⟩
  have hlast : last ∈ head :: as := hsplit ▸ List.mem_append_right _ (List.mem_singleton_self last)
  have hprev : h.prev head = some last := by
    have hchain := hring.chain
    rw [hsplit, List.append_assoc] at hchain
    exact (List.isChain_pair.mp (List.isChain_split.mp hchain).2).2
  have hhead := hring.allocated head List.mem_cons_self
  let h' : Heap :=
    { allocated := h.allocated
      next := Function.update (Function.update h.next new (some head)) last (some new)
      prev := Function.update (Function.update h.prev head (some new)) new (some last) }
  refine ⟨h', ?_, hring.insert hsplit hnew hallocated rfl rfl rfl, ?_⟩
  · simp only [listAddTail, listAddBetween, getPrev_of_allocated hhead, hprev,
      Option.bind_eq_bind, Option.bind_some, setPrev_of_allocated hhead]
    rw [setNext_of_allocated (by exact hallocated), Option.bind_some,
      setPrev_of_allocated (by exact hallocated), Option.bind_some,
      setNext_of_allocated (by exact hring.allocated last hlast)]
  · refine ⟨fun a ha => ?_, fun a ha => ?_, rfl⟩
    · have hane : a ≠ new := fun heq => ha (heq ▸ List.mem_cons_self)
      have hal : a ≠ last := fun heq => ha (List.mem_cons_of_mem _ (heq ▸ hlast))
      simp [h', hane, hal]
    · have hane : a ≠ new := fun heq => ha (heq ▸ List.mem_cons_self)
      have hah : a ≠ head := fun heq => ha (List.mem_cons_of_mem _ (heq ▸ List.mem_cons_self))
      simp [h', hane, hah]

theorem listDel_spec (hring : Ring h head (as ++ e :: bs)) :
    ∃ h', listDel h (some e) = some h' ∧ Ring h' head (as ++ bs) ∧
      Frame h h' (head :: (as ++ e :: bs)) ∧ h'.next e = none ∧ h'.prev e = none := by
  obtain ⟨front, p, hfront⟩ : ∃ front p, head :: as = front ++ [p] :=
    ⟨(head :: as).dropLast, (head :: as).getLast (by simp),
      (List.dropLast_append_getLast (by simp)).symm⟩
  obtain ⟨q, back, hback⟩ : ∃ q back, bs ++ [head] = q :: back :=
    List.exists_cons_of_ne_nil (by simp)
  have hchain := hring.chain
  have hshape : head :: (as ++ e :: bs) ++ [head] = front ++ p :: e :: q :: back := by
    have hrest : e :: bs ++ [head] = e :: q :: back := by rw [List.cons_append, hback]
    rw [← List.cons_append, hfront, List.append_assoc, hrest]
    simp
  rw [hshape, List.isChain_append_cons_cons] at hchain
  obtain ⟨-, hpe, hrest⟩ := hchain
  have heq := (List.isChain_cons_cons.mp hrest).1
  have hmemp : p ∈ head :: (as ++ e :: bs) := by
    rw [← List.cons_append, hfront]
    simp
  have hmemq : q ∈ head :: (as ++ e :: bs) := by
    have hmem : q ∈ bs ++ [head] := hback ▸ List.mem_cons_self
    rcases List.mem_append.mp hmem with hmem | hmem
    · simp [hmem]
    · simp [List.mem_singleton.mp hmem]
  have hmeme : e ∈ head :: (as ++ e :: bs) := by simp
  have hp := hring.allocated p hmemp
  have hq := hring.allocated q hmemq
  have he := hring.allocated e hmeme
  let h' : Heap :=
    { allocated := h.allocated
      next := Function.update (Function.update h.next p (some q)) e none
      prev := Function.update (Function.update h.prev q (some p)) e none }
  refine ⟨h', ?_, hring.delete hfront hback rfl rfl rfl, ⟨fun a ha => ?_, fun a ha => ?_, rfl⟩,
    by simp [h'], by simp [h']⟩
  · simp only [listDel, listDelBetween, getPrev_of_allocated he, getNext_of_allocated he, hpe.2,
      heq.1, Option.bind_eq_bind, Option.bind_some, setPrev_of_allocated hq]
    rw [setNext_of_allocated (by exact hp), Option.bind_some, setNext_of_allocated (by exact he),
      Option.bind_some, setPrev_of_allocated (by exact he)]
  · have hap : a ≠ p := fun heq => ha (heq ▸ hmemp)
    have hae : a ≠ e := fun heq => ha (heq ▸ hmeme)
    simp [h', hap, hae]
  · have haq : a ≠ q := fun heq => ha (heq ▸ hmemq)
    have hae : a ≠ e := fun heq => ha (heq ▸ hmeme)
    simp [h', haq, hae]

theorem next_of_ring (hring : Ring h head (as ++ a :: bs)) :
    h.next a = (bs ++ [head]).head? := by
  have hchain := hring.chain
  have hshape : head :: (as ++ a :: bs) ++ [head] = (head :: as) ++ a :: (bs ++ [head]) := by simp
  rw [hshape] at hchain
  have hrest := (List.isChain_split.mp hchain).2
  obtain ⟨q, back, hback⟩ : ∃ q back, bs ++ [head] = q :: back :=
    List.exists_cons_of_ne_nil (by simp)
  rw [hback] at hrest ⊢
  exact (List.isChain_cons_cons.mp hrest).1.1

theorem next_head (hring : Ring h head as) : h.next head = (as ++ [head]).head? := by
  have hchain := hring.chain
  obtain ⟨q, back, hback⟩ : ∃ q back, as ++ [head] = q :: back :=
    List.exists_cons_of_ne_nil (by simp)
  rw [List.cons_append, hback] at hchain
  rw [hback]
  exact (List.isChain_cons_cons.mp hchain).1.1

theorem findLoop_spec (p : Nat → Bool) (hring : Ring h head (as ++ bs)) {fuel : Nat}
    (hfuel : bs.length < fuel) :
    findLoop p head h fuel (bs ++ [head]).head? = some (bs.find? p) := by
  induction bs generalizing as fuel with
  | nil =>
      obtain ⟨fuel, rfl⟩ : ∃ k, fuel = k + 1 := ⟨fuel - 1, by simp at hfuel; omega⟩
      simp [findLoop]
  | cons a bs ih =>
      obtain ⟨fuel, rfl⟩ : ∃ k, fuel = k + 1 := ⟨fuel - 1, by omega⟩
      have hne : a ≠ head := by
        rintro rfl
        exact (List.nodup_cons.mp hring.nodup).1 (by simp)
      have ha := hring.allocated a (by simp)
      have hnext := next_of_ring hring
      have hlater := @ih (as ++ [a]) (by simpa using hring) fuel (by simp at hfuel; omega)
      simp only [findLoop, List.cons_append, List.head?_cons, Option.some.injEq, hne, if_false,
        getNext_of_allocated ha, hnext, Option.bind_eq_bind, Option.bind_some, Option.any_some]
      by_cases hp : p a = true
      · simp [hp]
      · simpa [hp] using hlater

theorem listForEachEntry_spec (p : Nat → Bool) (hring : Ring h head as) {fuel : Nat}
    (hfuel : as.length < fuel) : listForEachEntry p head fuel h = some (as.find? p) := by
  have hhead := hring.allocated head List.mem_cons_self
  have hloop := findLoop_spec p (show Ring h head ([] ++ as) from hring) hfuel
  simp only [listForEachEntry, getNext_of_allocated hhead, next_head hring, Option.bind_eq_bind,
    Option.bind_some, hloop]

theorem safeLoop_spec (p : Nat → Bool) (hring : Ring h head (as ++ bs)) {fuel : Nat}
    (hfuel : bs.length < fuel) (entry : Option Nat) :
    ∃ h', safeLoop p head h fuel (bs ++ [head]).head? ((bs ++ [head]).head?.bind h.next) entry =
        some { heap := h'
               entry := (FirstMatch.unlinkLoop p bs entry).cursor
               found := (FirstMatch.unlinkLoop p bs entry).found } ∧
      Ring h' head (as ++ (FirstMatch.unlinkLoop p bs entry).list) ∧
      Frame h h' (head :: (as ++ bs)) := by
  induction bs generalizing as fuel entry with
  | nil =>
      obtain ⟨fuel, rfl⟩ : ∃ k, fuel = k + 1 := ⟨fuel - 1, by simp at hfuel; omega⟩
      exact ⟨h, by simp [safeLoop, FirstMatch.unlinkLoop], hring, Frame.refl h _⟩
  | cons a bs ih =>
      obtain ⟨fuel, rfl⟩ : ∃ k, fuel = k + 1 := ⟨fuel - 1, by omega⟩
      have hne : a ≠ head := by
        rintro rfl
        exact (List.nodup_cons.mp hring.nodup).1 (by simp)
      have hnext := next_of_ring hring
      by_cases hp : p a = true
      · obtain ⟨h', hdel, hring', hframe, -⟩ := listDel_spec hring
        refine ⟨h', ?_, ?_, hframe⟩
        · simp [safeLoop, FirstMatch.unlinkLoop, hne, hp, hdel]
        · simpa [FirstMatch.unlinkLoop, hp] using hring'
      · obtain ⟨h', hloop, hring', hframe⟩ := @ih (as ++ [a]) (by simpa using hring) fuel
          (by simp at hfuel; omega) (some a)
        refine ⟨h', ?_, ?_, by simpa using hframe⟩
        · obtain ⟨q, back, hback⟩ : ∃ q back, bs ++ [head] = q :: back :=
            List.exists_cons_of_ne_nil (by simp)
          have hq : h.allocated q = true := by
            have hmem : q ∈ bs ++ [head] := hback ▸ List.mem_cons_self
            apply hring.allocated
            rcases List.mem_append.mp hmem with hmem | hmem
            · simp [hmem]
            · simp [List.mem_singleton.mp hmem]
          rw [hback] at hnext hloop
          simpa [safeLoop, FirstMatch.unlinkLoop, hne, hp, hnext, getNext_of_allocated hq]
            using hloop
        · simpa [FirstMatch.unlinkLoop, hp] using hring'

/-- The unlinking loop of the five lists does in memory what `unlinkLoop` does to
the list of the nodes. -/
theorem listForEachSafe_spec (p : Nat → Bool) (hring : Ring h head as) {fuel : Nat}
    (hfuel : as.length < fuel) :
    ∃ h', listForEachSafe p head fuel h =
        some { heap := h'
               entry := (FirstMatch.unlinkLoop p as none).cursor
               found := (FirstMatch.unlinkLoop p as none).found } ∧
      Ring h' head (FirstMatch.unlinkLoop p as none).list ∧ Frame h h' (head :: as) := by
  have hhead := hring.allocated head List.mem_cons_self
  obtain ⟨h', hloop, hring', hframe⟩ :=
    safeLoop_spec p (show Ring h head ([] ++ as) from hring) hfuel none
  refine ⟨h', ?_, hring', hframe⟩
  obtain ⟨q, back, hback⟩ : ∃ q back, as ++ [head] = q :: back :=
    List.exists_cons_of_ne_nil (by simp)
  have hq : h.allocated q = true := by
    have hmem : q ∈ as ++ [head] := hback ▸ List.mem_cons_self
    apply hring.allocated
    rcases List.mem_append.mp hmem with hmem | hmem
    · simp [hmem]
    · simp [List.mem_singleton.mp hmem]
  have hnext := next_head hring
  rw [hback, List.head?_cons] at hnext hloop
  simpa [listForEachSafe, getNext_of_allocated hhead, hnext, getNext_of_allocated hq] using hloop

end GwWeb.ListHead
