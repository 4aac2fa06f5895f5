import Mathlib.Data.Nat.Digits.Defs
import Mathlib.Data.Int.ModEq

/-!
Numerals as lists of digits, the most significant one first.
-/

namespace PositionalNumerals

/-- The number that digits stand for, the highest first. -/
def value (b : Nat) (digits : List Nat) : Nat := Nat.ofDigits b digits.reverse

variable {b : Nat}

@[simp] theorem value_nil : value b [] = 0 := rfl

theorem value_cons (d : Nat) (digits : List Nat) :
    value b (d :: digits) = d * b ^ digits.length + value b digits := by
  rw [value, Nat.ofDigits_reverse_cons, Nat.mul_comm, Nat.add_comm]
  rfl

@[simp] theorem value_singleton (d : Nat) : value b [d] = d := by
  simp [value]

@[simp] theorem value_zero_cons (digits : List Nat) : value b (0 :: digits) = value b digits := by
  rw [value_cons, Nat.zero_mul, Nat.zero_add]

theorem value_append (digits digits' : List Nat) :
    value b (digits ++ digits') = value b digits * b ^ digits'.length + value b digits' := by
  rw [value, List.reverse_append, Nat.ofDigits_append, List.length_reverse, Nat.add_comm,
    Nat.mul_comm]
  rfl

theorem value_replicate_zero (k : Nat) : value b (List.replicate k 0) = 0 := by
  rw [value, List.reverse_replicate, Nat.ofDigits_replicate_zero]

theorem value_modEq_last {m k : Nat} (hm : m ∣ b ^ k) (digits : List Nat) :
    value b digits ≡ value b (digits.drop (digits.length - k)) [MOD m] := by
  rcases Nat.le_total digits.length k with hshort | hlong
  · rw [Nat.sub_eq_zero_of_le hshort, List.drop_zero]
  · have hlast : (digits.drop (digits.length - k)).length = k := by
      rw [List.length_drop]
      omega
    conv_lhs => rw [← List.take_append_drop (digits.length - k) digits]
    rw [value_append, hlast]
    have hzero : value b (digits.take (digits.length - k)) * b ^ k ≡ 0 [MOD m] :=
      Nat.modEq_zero_iff_dvd.mpr (hm.mul_left _)
    simpa using hzero.add_right (value b (digits.drop (digits.length - k)))

end PositionalNumerals
