import Mathlib.Data.List.Basic
import Mathlib.Tactic.Common

/-!
Byte memory addressed by integers, with the block operations of C's `string.h`.
-/

namespace ByteMemory

/-- Bytes by their places. -/
abbrev Memory := Int → UInt8

/-- The `n` bytes from `p` on. -/
def bytesAt (m : Memory) (p : Int) (n : Nat) : List UInt8 :=
  (List.range n).map fun i : Nat => m (p + i)

/-- The bytes stored from `p` on. -/
def store (m : Memory) (p : Int) (bytes : List UInt8) : Memory := fun i =>
  if p ≤ i ∧ i < p + bytes.length then bytes.getD (i - p).toNat 0 else m i

/-- Copy `n` bytes from `src` to `dst` as if through a second buffer. -/
def memmove (m : Memory) (dst src : Int) (n : Nat) : Memory :=
  store m dst (bytesAt m src n)

/-- The bytes one access touches, by offset from the start of a block. -/
structure Span where
  start : Nat
  length : Nat
  deriving DecidableEq, Repr

/-- The access stays inside a block of `n` bytes. -/
def Span.Within (s : Span) (n : Int) : Prop := s.length = 0 ∨ (s.start + s.length : Int) ≤ n

instance (s : Span) (n : Int) : Decidable (s.Within n) :=
  inferInstanceAs (Decidable (_ ∨ _))

@[simp] theorem bytesAt_length (m : Memory) (p : Int) (n : Nat) :
    (bytesAt m p n).length = n := by
  simp [bytesAt]

@[simp] theorem bytesAt_zero (m : Memory) (p : Int) : bytesAt m p 0 = [] := rfl

theorem bytesAt_getElem (m : Memory) (p : Int) (n i : Nat) (hi : i < (bytesAt m p n).length) :
    (bytesAt m p n)[i] = m (p + i) := by
  simp [bytesAt]

theorem bytesAt_getD (m : Memory) (p : Int) {n i : Nat} (hi : i < n) :
    (bytesAt m p n).getD i 0 = m (p + i) := by
  simp [bytesAt, hi]

theorem bytesAt_congr {m m' : Memory} {p : Int} {n : Nat}
    (h : ∀ i, p ≤ i → i < p + n → m i = m' i) : bytesAt m p n = bytesAt m' p n := by
  apply List.map_congr_left
  intro i hi
  have := List.mem_range.mp hi
  exact h _ (by omega) (by omega)

theorem bytesAt_add (m : Memory) (p : Int) (k n : Nat) :
    bytesAt m p (k + n) = bytesAt m p k ++ bytesAt m (p + k) n := by
  simp only [bytesAt, List.range_add, List.map_append, List.map_map]
  congr 1
  apply List.map_congr_left
  intro i _
  simp [Int.add_assoc]

theorem bytesAt_drop (m : Memory) (p : Int) (n k : Nat) (hk : k ≤ n) :
    (bytesAt m p n).drop k = bytesAt m (p + k) (n - k) := by
  obtain ⟨j, rfl⟩ := Nat.exists_eq_add_of_le hk
  rw [bytesAt_add, List.drop_left' (by simp)]
  simp

theorem bytesAt_take (m : Memory) (p : Int) (n k : Nat) (hk : k ≤ n) :
    (bytesAt m p n).take k = bytesAt m p k := by
  obtain ⟨j, rfl⟩ := Nat.exists_eq_add_of_le hk
  rw [bytesAt_add, List.take_left' (by simp)]

theorem store_outside {m : Memory} {p i : Int} {bytes : List UInt8}
    (h : i < p ∨ p + bytes.length ≤ i) : store m p bytes i = m i := by
  rw [store, if_neg (by omega)]

theorem store_inside (m : Memory) (p : Int) {bytes : List UInt8} {i : Nat}
    (hi : i < bytes.length) : store m p bytes (p + i) = bytes.getD i 0 := by
  have hindex : (p + (i : Int) - p).toNat = i := by omega
  rw [store, if_pos (by omega), hindex]

theorem store_zero_inside (m : Memory) {bytes : List UInt8} {i : Nat} (hi : i < bytes.length) :
    store m 0 bytes i = bytes.getD i 0 := by
  have hstore := store_inside m 0 hi
  rwa [Int.zero_add] at hstore

theorem bytesAt_middle {m : Memory} {p : Int} {before bytes after : List UInt8}
    (h : bytesAt m p (before ++ (bytes ++ after)).length = before ++ (bytes ++ after)) :
    bytesAt m (p + before.length) bytes.length = bytes := by
  rw [List.length_append, List.length_append, bytesAt_add, bytesAt_add] at h
  have hbehind := (List.append_inj h (by simp)).2
  exact (List.append_inj hbehind (by simp)).1

theorem bytesAt_store (m : Memory) (p : Int) (bytes : List UInt8) :
    bytesAt (store m p bytes) p bytes.length = bytes := by
  apply List.ext_getElem (by simp)
  intro i hi hi'
  rw [bytesAt_getElem, store_inside m p hi', List.getD_eq_getElem?_getD,
    List.getElem?_eq_getElem hi', Option.getD_some]

theorem bytesAt_store_left (m : Memory) (p : Int) (bytes bytes' : List UInt8) :
    bytesAt (store m p (bytes ++ bytes')) p bytes.length = bytes := by
  have hall := bytesAt_store m p (bytes ++ bytes')
  have htake := bytesAt_take (store m p (bytes ++ bytes')) p (bytes ++ bytes').length bytes.length
    (by simp)
  rw [← htake, hall, List.take_left]

theorem bytesAt_store_disjoint {m : Memory} {p q : Int} {n : Nat} {bytes : List UInt8}
    (h : q + n ≤ p ∨ p + bytes.length ≤ q) : bytesAt (store m p bytes) q n = bytesAt m q n :=
  bytesAt_congr fun i _ _ => store_outside (by omega)

theorem bytesAt_store_append (m : Memory) (n : Nat) (bytes : List UInt8) :
    bytesAt (store m n bytes) 0 (n + bytes.length) = bytesAt m 0 n ++ bytes := by
  rw [bytesAt_add, Int.zero_add, bytesAt_store,
    bytesAt_store_disjoint (.inl (by simp))]

theorem bytesAt_memmove (m : Memory) (dst src : Int) (n : Nat) :
    bytesAt (memmove m dst src n) dst n = bytesAt m src n := by
  simpa [memmove] using bytesAt_store m dst (bytesAt m src n)

theorem memmove_outside {m : Memory} {dst src i : Int} {n : Nat}
    (h : i < dst ∨ dst + n ≤ i) : memmove m dst src n i = m i :=
  store_outside (by simpa using h)

end ByteMemory
