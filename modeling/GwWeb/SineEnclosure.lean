import Mathlib.Analysis.SpecialFunctions.Trigonometric.Series
import Mathlib.Analysis.SpecificLimits.Normed

/-!
Sines of the multiples of an angle in fixed point. `turn` adds the angle to a
pair of a sine and a cosine, in units of `1 / q`; the error at most doubles, up to
three units.
-/

namespace SineEnclosure

open Filter

/-- Within `e` units of `s`. -/
def Near (q s e : ℤ) (x : ℝ) : Prop := |q * x - s| ≤ e

/-- One more radian, scaled by `q`. -/
def turn (q sin₁ cos₁ : ℤ) (p : ℤ × ℤ) : ℤ × ℤ :=
  ((p.1 * cos₁ + p.2 * sin₁) / q, (p.2 * cos₁ - p.1 * sin₁) / q)

theorem near_ediv {q a e : ℤ} {x : ℝ} (hq : 0 < q) (h : |q * (q * x) - a| ≤ q * e) :
    Near q (a / q) (e + 1) x := by
  have hq' : (0 : ℝ) < q := by exact_mod_cast hq
  have hlow : (q : ℝ) * (a / q : ℤ) ≤ a := by exact_mod_cast Int.mul_ediv_self_le hq.ne'
  have hhigh : (a : ℝ) < q * (a / q : ℤ) + q := by
    exact_mod_cast Int.lt_mul_ediv_self_add hq
  obtain ⟨hleft, hright⟩ := abs_le.mp h
  unfold Near
  push_cast
  refine abs_le.mpr ⟨?_, ?_⟩
  · refine le_of_mul_le_mul_left ?_ hq'
    linarith
  · refine le_of_mul_le_mul_left ?_ hq'
    linarith

theorem abs_mul_sub_le {q s t e : ℤ} {x y : ℝ} (hx : Near q s e x) (hy : Near q t 1 y)
    (hx1 : |x| ≤ 1) (ht : |t| ≤ q) : |q * x * (q * y) - s * t| ≤ q * (e + 1) := by
  have hq : (0 : ℝ) ≤ q := by exact_mod_cast (abs_nonneg t).trans ht
  have ht' : |(t : ℝ)| ≤ q := by exact_mod_cast ht
  have hy' : |q * y - t| ≤ 1 := by simpa [Near] using hy
  have hsplit : (q : ℝ) * x * (q * y) - s * t = q * x * (q * y - t) + (q * x - s) * t := by ring
  have hfirst : |q * x * (q * y - t)| ≤ q * 1 := by
    rw [abs_mul, abs_mul, abs_of_nonneg hq]
    calc
      (q : ℝ) * |x| * |q * y - t| ≤ q * 1 * 1 := by gcongr
      _ = q * 1 := by ring
  have hsecond : |(q * x - s) * t| ≤ e * q := by
    rw [abs_mul]
    exact mul_le_mul hx ht' (abs_nonneg _) ((abs_nonneg _).trans hx)
  calc
    |(q : ℝ) * x * (q * y) - s * t| ≤ |q * x * (q * y - t)| + |(q * x - s) * t| := by
      rw [hsplit]
      exact abs_add_le _ _
    _ ≤ q * (e + 1) := by linarith

section Turn

variable {q sin₁ cos₁ e : ℤ} {x θ : ℝ} {p : ℤ × ℤ}

/-- The sine and the cosine of an angle, each within `e` units. -/
structure Encloses (q e : ℤ) (p : ℤ × ℤ) (x : ℝ) : Prop where
  sin : Near q p.1 e (Real.sin x)
  cos : Near q p.2 e (Real.cos x)

theorem Encloses.turn (hq : 0 < q) (hθ : Encloses q 1 (sin₁, cos₁) θ) (hsin : |sin₁| ≤ q)
    (hcos : |cos₁| ≤ q) (h : Encloses q e p x) :
    Encloses q (2 * e + 3) (turn q sin₁ cos₁ p) (x + θ) := by
  have hss := abs_mul_sub_le h.sin hθ.sin (Real.abs_sin_le_one x) hsin
  have hsc := abs_mul_sub_le h.sin hθ.cos (Real.abs_sin_le_one x) hcos
  have hcs := abs_mul_sub_le h.cos hθ.sin (Real.abs_cos_le_one x) hsin
  have hcc := abs_mul_sub_le h.cos hθ.cos (Real.abs_cos_le_one x) hcos
  have herror : (2 * e + 3 : ℤ) = (2 * (e + 1)) + 1 := by ring
  rw [herror]
  refine ⟨near_ediv hq ?_, near_ediv hq ?_⟩
  · rw [Real.sin_add]
    push_cast
    have hsplit : (q : ℝ) * (q * (Real.sin x * Real.cos θ + Real.cos x * Real.sin θ)) -
          (p.1 * cos₁ + p.2 * sin₁) =
        (q * Real.sin x * (q * Real.cos θ) - p.1 * cos₁) +
          (q * Real.cos x * (q * Real.sin θ) - p.2 * sin₁) := by ring
    rw [hsplit]
    refine (abs_add_le _ _).trans ?_
    linarith
  · rw [Real.cos_add]
    push_cast
    have hsplit : (q : ℝ) * (q * (Real.cos x * Real.cos θ - Real.sin x * Real.sin θ)) -
          (p.2 * cos₁ - p.1 * sin₁) =
        (q * Real.cos x * (q * Real.cos θ) - p.2 * cos₁) -
          (q * Real.sin x * (q * Real.sin θ) - p.1 * sin₁) := by ring
    rw [hsplit]
    refine (abs_sub _ _).trans ?_
    linarith

/-- The table lists the whole parts of the sines in units of `unit / q`, from the
angle behind `p` on. -/
def agrees (q sin₁ cos₁ unit : ℤ) : List ℤ → ℤ × ℤ → ℤ → Bool
  | [], _, _ => true
  | t :: ts, p, e =>
      decide (t * unit + (2 * e + 3) ≤ |(turn q sin₁ cos₁ p).1|) &&
        (decide (|(turn q sin₁ cos₁ p).1| + (2 * e + 3) < (t + 1) * unit) &&
          agrees q sin₁ cos₁ unit ts (turn q sin₁ cos₁ p) (2 * e + 3))

theorem floor_abs_eq {unit s t : ℤ} (hq : 0 < q) (hunit : 0 < unit) (h : Near q s e x)
    (hlow : t * unit + e ≤ |s|) (hhigh : |s| + e < (t + 1) * unit) :
    ⌊(q : ℝ) * |x| / unit⌋ = t := by
  have hunit' : (0 : ℝ) < unit := by exact_mod_cast hunit
  have hlow' : (t : ℝ) * unit + e ≤ |(s : ℝ)| := by exact_mod_cast hlow
  have hhigh' : |(s : ℝ)| + e < (t + 1) * unit := by exact_mod_cast hhigh
  have hnear := abs_le.mp ((abs_abs_sub_abs_le (q * x) (s : ℝ)).trans h)
  have habs : |(q : ℝ) * x| = q * |x| := by
    rw [abs_mul, abs_of_nonneg (by exact_mod_cast hq.le)]
  rw [habs] at hnear
  refine Int.floor_eq_iff.mpr ⟨?_, ?_⟩
  · rw [le_div_iff₀ hunit']
    linarith
  · rw [div_lt_iff₀ hunit']
    linarith

theorem agrees_sound {unit : ℤ} (hq : 0 < q) (hunit : 0 < unit)
    (hθ : Encloses q 1 (sin₁, cos₁) θ) (hsin : |sin₁| ≤ q) (hcos : |cos₁| ≤ q) {ts : List ℤ}
    (h : Encloses q e p x) (hagrees : agrees q sin₁ cos₁ unit ts p e = true) {k : ℕ}
    (hk : k < ts.length) :
    ⌊(q : ℝ) * |Real.sin (x + (k + 1) * θ)| / unit⌋ = ts[k] := by
  induction ts generalizing p e x k with
  | nil => cases hk
  | cons t ts ih =>
      simp only [agrees, Bool.and_eq_true, decide_eq_true_eq] at hagrees
      obtain ⟨hlow, hhigh, hrest⟩ := hagrees
      have hturn := Encloses.turn hq hθ hsin hcos h
      cases k with
      | zero => simpa using floor_abs_eq hq hunit hturn.sin hlow hhigh
      | succ k =>
          have hlater := ih hturn hrest (Nat.lt_of_succ_lt_succ hk)
          have hangle : x + θ + (k + 1) * θ = x + ((k + 1 : ℕ) + 1) * θ := by
            push_cast
            ring
          rwa [hangle] at hlater

end Turn

/-- The partial sums of an alternating series whose terms fall. -/
theorem abs_sub_sum_le {l : ℝ} {f : ℕ → ℝ} (hf : Antitone f)
    (hl : HasSum (fun i => (-1) ^ i * f i) l) (k : ℕ) :
    |l - ∑ i ∈ Finset.range (2 * k), (-1) ^ i * f i| ≤ f (2 * k) := by
  have htendsto := hl.tendsto_sum_nat
  have hlow := hf.alternating_series_le_tendsto htendsto k
  have hhigh := hf.tendsto_le_alternating_series htendsto k
  rw [Finset.sum_range_succ, pow_mul, neg_one_sq, one_pow, one_mul] at hhigh
  exact abs_le.mpr ⟨by linarith [hf.tendsto_le_alternating_series htendsto k], by linarith⟩

theorem antitone_inv_factorial {g : ℕ → ℕ} (hg : Monotone g) :
    Antitone fun i => (1 / (g i).factorial : ℝ) := fun i j hij =>
  one_div_le_one_div_of_le (by positivity) (by exact_mod_cast Nat.factorial_le (hg hij))

theorem abs_cos_one_sub_le (k : ℕ) :
    |Real.cos 1 - ∑ i ∈ Finset.range (2 * k), (-1) ^ i * (1 / (2 * i).factorial : ℝ)| ≤
      1 / (2 * (2 * k)).factorial := by
  refine abs_sub_sum_le (antitone_inv_factorial fun i j hij => by omega) ?_ k
  simpa [div_eq_mul_inv] using Real.hasSum_cos 1

theorem abs_sin_one_sub_le (k : ℕ) :
    |Real.sin 1 - ∑ i ∈ Finset.range (2 * k), (-1) ^ i * (1 / (2 * i + 1).factorial : ℝ)| ≤
      1 / (2 * (2 * k) + 1).factorial := by
  refine abs_sub_sum_le (antitone_inv_factorial fun i j hij => by omega) ?_ k
  simpa [div_eq_mul_inv] using Real.hasSum_sin 1

end SineEnclosure
