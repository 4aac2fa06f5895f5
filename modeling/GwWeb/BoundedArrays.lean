import Mathlib.Data.List.Basic
import Mathlib.Logic.Function.Basic
import Mathlib.Tactic.Common

/-!
Arrays of a fixed size with checked indices, and counted loops over them: an access
outside an array is `none`.
-/

namespace BoundedArrays

variable {n : Nat} {β σ : Type*}

/-- `a[i]`, where `i` is an index of `a`. -/
def read (a : Fin n → β) (i : Nat) : Option β := if h : i < n then some (a ⟨i, h⟩) else none

/-- `a[i] = x`, where `i` is an index of `a`. -/
def write (a : Fin n → β) (i : Nat) (x : β) : Option (Fin n → β) :=
  if h : i < n then some (Function.update a ⟨i, h⟩ x) else none

/-- `for (i = lo; ...; i = i + step) body`, `rounds` times. -/
def forLoop (body : Nat → σ → Option σ) (lo step rounds : Nat) (s : σ) : Option σ :=
  (List.range' lo rounds step).foldlM (fun s i => body i s) s

theorem read_of_lt (a : Fin n → β) {i : Nat} (h : i < n) : read a i = some (a ⟨i, h⟩) :=
  dif_pos h

theorem write_of_lt (a : Fin n → β) {i : Nat} (h : i < n) (x : β) :
    write a i x = some (Function.update a ⟨i, h⟩ x) :=
  dif_pos h

/-- Invariant rule: what each round keeps holds behind the last one. -/
theorem forLoop_invariant {body : Nat → σ → Option σ} {lo step rounds : Nat} {s : σ}
    (P : Nat → σ → Prop) (hinit : P 0 s)
    (hround : ∀ j s, j < rounds → P j s → ∃ s', body (lo + step * j) s = some s' ∧ P (j + 1) s') :
    ∃ s', forLoop body lo step rounds s = some s' ∧ P rounds s' := by
  induction rounds with
  | zero => exact ⟨s, rfl, hinit⟩
  | succ rounds ih =>
      obtain ⟨t, hloop, ht⟩ := ih fun j s hj => hround j s (Nat.lt_succ_of_lt hj)
      obtain ⟨s', hbody, hs'⟩ := hround rounds t (Nat.lt_succ_self _) ht
      refine ⟨s', ?_, hs'⟩
      unfold forLoop at hloop ⊢
      rw [List.range'_concat, List.foldlM_append, hloop]
      simpa using hbody

end BoundedArrays
