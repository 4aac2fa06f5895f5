import Mathlib.Algebra.Order.Floor.Defs
import Mathlib.Data.Int.Log
import Mathlib.Data.Rat.Floor
import Mathlib.Tactic.Linarith
import Mathlib.Tactic.NormNum
import Mathlib.Tactic.Positivity

/-!
Binary floating-point formats over the rationals, with rounding to nearest, ties to even.
Infinities are left out: a format here has no greatest exponent.
-/

namespace BinaryFloat

/-- `precision` bits, the last of them not below 2^`minExponent`. -/
structure Format where
  precision : Nat
  minExponent : Int

def binary32 : Format := { precision := 24, minExponent := -149 }

def binary64 : Format := { precision := 53, minExponent := -1074 }

/-- The format has a place for `x`. -/
def Representable (f : Format) (x : ℚ) : Prop :=
  ∃ m e : Int, |m| < 2 ^ f.precision ∧ f.minExponent ≤ e ∧ x = m * 2 ^ e

/-- The exponent of the last bit of a value of this size. -/
def lastExponent (f : Format) (x : ℚ) : Int :=
  max (Int.log 2 |x| + 1 - f.precision) f.minExponent

/-- To the nearest integer, and to the even one of two. -/
def roundEven (x : ℚ) : Int :=
  let below := ⌊x⌋
  if x - below < 1 / 2 then below
  else if 1 / 2 < x - below then below + 1
  else if below % 2 = 0 then below
  else below + 1

/-- `x` in the format, of any magnitude: there is no overflow here. -/
def Format.round (f : Format) (x : ℚ) : ℚ :=
  roundEven (x / 2 ^ lastExponent f x) * 2 ^ lastExponent f x

variable {f : Format} {x : ℚ}

@[simp] theorem roundEven_intCast (n : Int) : roundEven n = n := by
  simp [roundEven]

theorem lastExponent_le {m e : Int} (hm : |m| < 2 ^ f.precision) (he : f.minExponent ≤ e)
    (hx : x = m * 2 ^ e) (hne : x ≠ 0) : lastExponent f x ≤ e := by
  have hpos : 0 < |x| := abs_pos.mpr hne
  have hm' : (|m| : ℚ) < 2 ^ f.precision := by exact_mod_cast hm
  have habs : |x| < (2 : ℕ) ^ ((f.precision : Int) + e) := by
    calc |x| = |(m : ℚ)| * 2 ^ e := by
          rw [hx, abs_mul, abs_of_pos (zpow_pos (by norm_num : (0 : ℚ) < 2) e)]
      _ < 2 ^ f.precision * 2 ^ e := by
          exact mul_lt_mul_of_pos_right hm' (zpow_pos (by norm_num) e)
      _ = (2 : ℕ) ^ ((f.precision : Int) + e) := by
          rw [zpow_add₀ (by norm_num), zpow_natCast]
          norm_num
  have hlog : Int.log 2 |x| < f.precision + e :=
    (Int.lt_zpow_iff_log_lt (by norm_num) hpos).mp habs
  unfold lastExponent
  omega

theorem round_of_representable (h : Representable f x) : f.round x = x := by
  obtain ⟨m, e, hm, he, hx⟩ := h
  rcases eq_or_ne x 0 with hzero | hne
  · have hcast : roundEven 0 = 0 := by simpa using roundEven_intCast 0
    rw [Format.round, hzero, zero_div, hcast]
    simp
  · have hle := lastExponent_le hm he hx hne
    rw [Format.round]
    generalize lastExponent f x = u at hle ⊢
    obtain ⟨k, rfl⟩ := Int.le.dest hle
    have hpow : (2 : ℚ) ^ u ≠ 0 := zpow_ne_zero _ (by norm_num)
    have hquot : x / 2 ^ u = ((m * 2 ^ k : Int) : ℚ) := by
      rw [div_eq_iff hpow, hx, zpow_add₀ (by norm_num), zpow_natCast]
      push_cast
      ring
    rw [hquot, roundEven_intCast, ← hquot]
    exact div_mul_cancel₀ x hpow

theorem representable_intCast {n : Int} (hn : |n| < 2 ^ f.precision) (he : f.minExponent ≤ 0) :
    Representable f n :=
  ⟨n, 0, hn, he, by simp⟩

end BinaryFloat
