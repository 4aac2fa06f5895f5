import Mathlib.Tactic.Common

/-!
Readers that look at the parts of a store one after the other while the store changes.
What they get need never have been there at one time, but each part was, and none at an
earlier time than the one before it.
-/

namespace SequentialReads

variable {σ κ ν : Type*}

/-- `Sampled shows stores i got j`: the parts `got` were read in this order, off stores
from the `i`-th to the `j`-th of `stores`. What a store `shows` for a part need not be
determined by the store. -/
inductive Sampled (shows : σ → κ → ν → Prop) (stores : List σ) (i : Nat) :
    List (κ × ν) → Nat → Prop where
  | start : Sampled shows stores i [] i
  | wait {got : List (κ × ν)} {j k : Nat} :
      Sampled shows stores i got j → j ≤ k → Sampled shows stores i got k
  | read {got : List (κ × ν)} {j : Nat} {s : σ} {c : κ} {v : ν} :
      Sampled shows stores i got j → stores[j]? = some s → shows s c v →
      Sampled shows stores i (got ++ [(c, v)]) j

variable {shows : σ → κ → ν → Prop} {stores later : List σ} {i j : Nat} {got : List (κ × ν)}

theorem Sampled.le (h : Sampled shows stores i got j) : i ≤ j := by
  induction h with
  | start => exact Nat.le_refl i
  | wait _ hle ih => exact Nat.le_trans ih hle
  | read _ _ _ ih => exact ih

theorem Sampled.extend (h : Sampled shows stores i got j) (later : List σ) :
    Sampled shows (stores ++ later) i got j := by
  induction h with
  | start => exact .start
  | wait _ hle ih => exact ih.wait hle
  | @read got j s c v _ hs hshows ih =>
      apply ih.read _ hshows
      obtain ⟨hj, -⟩ := List.getElem?_eq_some_iff.mp hs
      rw [List.getElem?_append_left hj, hs]

theorem Sampled.split (h : Sampled shows stores i got j) (before : List (κ × ν)) {e : κ × ν}
    {after : List (κ × ν)} (hgot : got = before ++ e :: after) :
    ∃ k s, Sampled shows stores i before k ∧ stores[k]? = some s ∧ shows s e.1 e.2 ∧
      Sampled shows stores k after j := by
  induction h generalizing after with
  | start => simp at hgot
  | wait _ hle ih =>
      obtain ⟨k, s, hbefore, hs, hshows, hafter⟩ := ih hgot
      exact ⟨k, s, hbefore, hs, hshows, hafter.wait hle⟩
  | @read got j s c v hsampled hs hshows ih =>
      rcases List.eq_nil_or_concat after with rfl | ⟨between, last, rfl⟩
      · obtain ⟨rfl, he⟩ := List.append_inj' hgot rfl
        obtain rfl := List.singleton_inj.mp he
        exact ⟨j, s, hsampled, hs, hshows, .start⟩
      · rw [List.concat_eq_append, ← List.cons_append, ← List.append_assoc] at hgot
        obtain ⟨hbefore, hlast⟩ := List.append_inj' hgot rfl
        obtain rfl := List.singleton_inj.mp hlast
        obtain ⟨k, s', hsampled', hs', hshows', hbetween⟩ := ih hbefore
        refine ⟨k, s', hsampled', hs', hshows', ?_⟩
        rw [List.concat_eq_append]
        exact hbetween.read hs hshows

end SequentialReads
