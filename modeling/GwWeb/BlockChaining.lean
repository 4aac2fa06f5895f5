import GwWeb.StreamDecoding

/-!
A compression function chained over the blocks of a message that arrives in
pieces. `absorb` is the state behind all whole blocks, and what is left of the
message; neither depends on where the message was cut.
-/

namespace BlockChaining

open StreamDecoding

variable {σ α : Type*} {n : Nat}

/-- Blocks of `n` elements, taken off the front. -/
def blocks (α : Type*) (hn : 0 < n) : PrefixDecoder α (List α) where
  next xs := if n ≤ xs.length then some (xs.take n, xs.drop n) else none
  next_length := by
    intro xs b ys h
    split at h
    · obtain ⟨rfl, rfl⟩ := Prod.mk.inj (Option.some.inj h)
      rw [List.length_drop]
      omega
    · cases h
  next_append := by
    intro xs b ys zs h
    split at h
    · rename_i hlength
      obtain ⟨rfl, rfl⟩ := Prod.mk.inj (Option.some.inj h)
      rw [if_pos (by rw [List.length_append]; omega), List.take_append_of_le_length hlength,
        List.drop_append_of_le_length hlength]
    · cases h

variable (hn : 0 < n) (compress : σ → List α → σ)

/-- What the blocks make of the state, and the bytes left over. -/
def absorb (s : σ) (xs : List α) : σ × List α :=
  (((blocks α hn).drain xs).1.foldl compress s, ((blocks α hn).drain xs).2)

variable {hn compress} {s : σ} {xs : List α}

theorem absorb_of_lt (h : xs.length < n) : absorb hn compress s xs = (s, xs) := by
  have hnext : (blocks α hn).next xs = none := if_neg (by omega)
  simp [absorb, PrefixDecoder.drain_of_none _ hnext]

theorem absorb_block (h : xs.length = n) (zs : List α) :
    absorb hn compress s (xs ++ zs) = absorb hn compress (compress s xs) zs := by
  have hnext : (blocks α hn).next (xs ++ zs) = some (xs, zs) := by
    change (if n ≤ (xs ++ zs).length then _ else none) = _
    rw [if_pos (by rw [List.length_append]; omega), List.take_left' h, List.drop_left' h]
  simp [absorb, PrefixDecoder.drain_of_some _ hnext]

theorem absorb_exact (h : xs.length = n) : absorb hn compress s xs = (compress s xs, []) := by
  rw [← List.append_nil xs, absorb_block h, absorb_of_lt hn, List.append_nil]

theorem absorb_iterate {τ : Type*} {f : σ → τ} {g : τ → τ}
    (hstep : ∀ s b, f (compress s b) = g (f s)) :
    f (absorb hn compress s xs).1 = g^[xs.length / n] (f s) ∧
      (absorb hn compress s xs).2.length = xs.length % n := by
  induction hlength : xs.length / n generalizing s xs with
  | zero =>
      have hlt : xs.length < n := (Nat.div_eq_zero_iff_lt hn).mp hlength
      rw [absorb_of_lt hlt, Nat.mod_eq_of_lt hlt]
      exact ⟨rfl, rfl⟩
  | succ k ih =>
      have hle : n ≤ xs.length := by
        by_contra hlt
        rw [Nat.div_eq_of_lt (by omega)] at hlength
        omega
      have hrest : (xs.drop n).length / n = k := by
        have hdiv := Nat.div_eq_sub_div hn hle
        rw [List.length_drop]
        omega
      obtain ⟨hf, hmod⟩ := ih (s := compress s (xs.take n)) hrest
      rw [← absorb_block (List.length_take_of_le hle), List.take_append_drop] at hf hmod
      refine ⟨?_, ?_⟩
      · rw [hf, hstep]
        rfl
      · rw [hmod, List.length_drop, ← Nat.mod_eq_sub_mod hle]

theorem absorb_map {τ : Type*} {f : σ → τ} {compress' : τ → List α → τ}
    (hstep : ∀ s b, f (compress s b) = compress' (f s) b) :
    absorb hn compress' (f s) xs =
      (f (absorb hn compress s xs).1, (absorb hn compress s xs).2) := by
  have hfold : ∀ (bs : List (List α)) (s : σ),
      bs.foldl compress' (f s) = f (bs.foldl compress s) := by
    intro bs
    induction bs with
    | nil => exact fun _ => rfl
    | cons b bs ih =>
        intro s
        rw [List.foldl_cons, List.foldl_cons, ← hstep, ih]
  exact Prod.ext (hfold _ s) rfl

end BlockChaining
