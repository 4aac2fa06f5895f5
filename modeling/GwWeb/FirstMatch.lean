import Mathlib.Data.List.Basic
import Mathlib.Data.List.Nodup
import Mathlib.Tactic.Common

/-!
Loops over a linked list that act on the first element with some property: the
search that unlinks it, and the search that updates it in place.
-/

namespace FirstMatch

variable {α β κ : Type*}

/-- What `for each x: cursor := x; if p x then unlink x; break` leaves: the
list, the cursor, and whether an element was unlinked. -/
structure Unlinked (α : Type*) where
  list : List α
  cursor : Option α
  found : Bool

/-- `list_for_each_safe` with `list_del` and `break` at the first match. -/
def unlinkLoop (p : α → Bool) : List α → Option α → Unlinked α
  | [], cursor => { list := [], cursor, found := false }
  | x :: xs, _ =>
      if p x then { list := xs, cursor := some x, found := true }
      else
        let rest := unlinkLoop p xs (some x)
        { rest with list := x :: rest.list }

def updateFirst (p : α → Bool) (f : α → α) : List α → List α
  | [] => []
  | x :: xs => if p x then f x :: xs else x :: updateFirst p f xs

@[simp] theorem unlinkLoop_list (p : α → Bool) (l : List α) (cursor : Option α) :
    (unlinkLoop p l cursor).list = l.eraseP p := by
  induction l generalizing cursor with
  | nil => rfl
  | cons x xs ih =>
      rcases eq_or_ne (p x) true with hx | hx
      · simp [unlinkLoop, hx]
      · simp [unlinkLoop, hx, ih]

@[simp] theorem unlinkLoop_found (p : α → Bool) (l : List α) (cursor : Option α) :
    (unlinkLoop p l cursor).found = l.any p := by
  induction l generalizing cursor with
  | nil => rfl
  | cons x xs ih =>
      rcases eq_or_ne (p x) true with hx | hx
      · simp [unlinkLoop, hx]
      · simp [unlinkLoop, hx, ih]

theorem unlinkLoop_cursor_of_any {p : α → Bool} {l : List α} (h : l.any p = true)
    (cursor : Option α) : (unlinkLoop p l cursor).cursor = l.find? p := by
  induction l generalizing cursor with
  | nil => simp at h
  | cons x xs ih =>
      rcases eq_or_ne (p x) true with hx | hx
      · simp [unlinkLoop, hx]
      · simp only [List.any_cons, hx, Bool.false_or] at h
        simp [unlinkLoop, hx, ih h]

theorem unlinkLoop_cursor_of_not_any {p : α → Bool} {l : List α} (h : l.any p = false)
    (cursor : Option α) : (unlinkLoop p l cursor).cursor = (l.getLast?).or cursor := by
  induction l generalizing cursor with
  | nil => rfl
  | cons x xs ih =>
      simp only [List.any_cons, Bool.or_eq_false_iff] at h
      simp only [unlinkLoop, h.1, Bool.false_eq_true, if_false, ih h.2]
      cases xs with
      | nil => rfl
      | cons y ys => rw [List.getLast?_cons_cons, List.getLast?_eq_some_getLast (by simp)]; rfl

theorem unlinkLoop_cursor_mem {p : α → Bool} {l : List α} {x : α}
    (h : (unlinkLoop p l none).cursor = some x) : x ∈ l := by
  cases hany : l.any p with
  | true =>
      rw [unlinkLoop_cursor_of_any hany] at h
      exact List.mem_of_find?_eq_some h
  | false =>
      rw [unlinkLoop_cursor_of_not_any hany, Option.or_none] at h
      exact List.mem_of_getLast? h

/-- The cursor is the match, or nothing, exactly when there is a match or
nothing to look at. -/
theorem unlinkLoop_cursor_eq_find_iff (p : α → Bool) (l : List α) :
    (unlinkLoop p l none).cursor = l.find? p ↔ l = [] ∨ l.any p = true := by
  cases hany : l.any p with
  | true => simp [unlinkLoop_cursor_of_any hany]
  | false =>
      have hfind : l.find? p = none := by simpa using hany
      rw [unlinkLoop_cursor_of_not_any hany, hfind]
      simp

theorem find?_eq_none_of_not_any {p : α → Bool} {l : List α} (h : ¬ l.any p = true) :
    l.find? p = none := by
  simpa using h

theorem eraseP_of_not_any {p : α → Bool} {l : List α} (h : ¬ l.any p = true) :
    l.eraseP p = l := by
  apply List.eraseP_of_forall_not
  simpa using h

theorem length_eraseP_add {p : α → Bool} {l : List α} (h : l.any p = true) :
    (l.eraseP p).length + 1 = l.length := by
  obtain ⟨x, hx, hp⟩ := List.any_eq_true.mp h
  have hpos := List.length_pos_of_mem hx
  rw [List.length_eraseP_of_mem hx hp]
  omega

theorem mem_updateFirst {p : α → Bool} {f : α → α} {l : List α} {y : α}
    (hy : y ∈ updateFirst p f l) : y ∈ l ∨ ∃ x ∈ l, p x = true ∧ y = f x := by
  induction l with
  | nil => exact .inl hy
  | cons x xs ih =>
      simp only [updateFirst] at hy
      split at hy
      · rename_i hx
        rcases List.mem_cons.mp hy with rfl | htail
        · exact .inr ⟨x, by simp, hx, rfl⟩
        · exact .inl (by simp [htail])
      · rcases List.mem_cons.mp hy with rfl | htail
        · exact .inl (by simp)
        · rcases ih htail with hold | ⟨z, hz, hp, rfl⟩
          · exact .inl (by simp [hold])
          · exact .inr ⟨z, by simp [hz], hp, rfl⟩

theorem map_updateFirst {p : α → Bool} {f : α → α} (g : α → β)
    (h : ∀ x, p x = true → g (f x) = g x) (l : List α) :
    (updateFirst p f l).map g = l.map g := by
  induction l with
  | nil => rfl
  | cons x xs ih =>
      rcases eq_or_ne (p x) true with hx | hx
      · simp [updateFirst, hx, h x hx]
      · simp [updateFirst, hx, ih]

theorem map_updateFirst_comm {p : α → Bool} {q : β → Bool} {f : α → α} {f' : β → β} (g : α → β)
    (hp : ∀ x, q (g x) = p x) (hf : ∀ x, p x = true → g (f x) = f' (g x)) (l : List α) :
    (updateFirst p f l).map g = updateFirst q f' (l.map g) := by
  induction l with
  | nil => rfl
  | cons x xs ih =>
      rcases eq_or_ne (p x) true with hx | hx
      · simp [updateFirst, hp, hx, hf x hx]
      · simp [updateFirst, hp, hx, ih]

theorem length_updateFirst (p : α → Bool) (f : α → α) (l : List α) :
    (updateFirst p f l).length = l.length := by
  have hmap := map_updateFirst (fun _ => ()) (fun _ _ => rfl) (f := f) l (p := p)
  simpa using congrArg List.length hmap

theorem map_eraseP_key [DecidableEq κ] (key : α → κ) (c : κ) (l : List α) :
    (l.eraseP fun x => key x = c).map key = (l.map key).erase c := by
  rw [List.erase_eq_eraseP', List.eraseP_map]
  rfl

theorem key_ne_of_mem_eraseP {p : α → Bool} {key : α → κ} {l : List α} {x y : α}
    (hnodup : (l.map key).Nodup) (hfind : l.find? p = some x) (hy : y ∈ l.eraseP p) :
    key y ≠ key x := by
  induction l with
  | nil => cases hy
  | cons z zs ih =>
      obtain ⟨hz, hzs⟩ := List.nodup_cons.mp hnodup
      rcases Bool.eq_false_or_eq_true (p z) with hp | hp
      · rw [List.find?_cons_of_pos hp] at hfind
        rw [List.eraseP_cons_of_pos hp] at hy
        obtain rfl := Option.some.inj hfind
        intro heq
        exact hz (heq ▸ List.mem_map_of_mem hy)
      · have hneg : ¬ p z = true := by simp [hp]
        rw [List.find?_cons_of_neg hneg] at hfind
        rw [List.eraseP_cons_of_neg hneg] at hy
        rcases List.mem_cons.mp hy with rfl | htail
        · intro heq
          exact hz (heq ▸ List.mem_map_of_mem (List.mem_of_find?_eq_some hfind))
        · exact ih hzs hfind htail

/-- The first match splits the list, and both loops act at the split. -/
theorem exists_split {p : α → Bool} {l : List α} {x : α} (h : l.find? p = some x) :
    ∃ l₁ l₂, l = l₁ ++ x :: l₂ ∧ (∀ y ∈ l₁, ¬ p y = true) ∧ l.eraseP p = l₁ ++ l₂ ∧
      ∀ f, updateFirst p f l = l₁ ++ f x :: l₂ := by
  induction l with
  | nil => cases h
  | cons z zs ih =>
      rcases Bool.eq_false_or_eq_true (p z) with hp | hp
      · rw [List.find?_cons_of_pos hp] at h
        obtain rfl := Option.some.inj h
        exact ⟨[], zs, rfl, by simp, List.eraseP_cons_of_pos hp, fun f => if_pos hp⟩
      · have hneg : ¬ p z = true := by simp [hp]
        rw [List.find?_cons_of_neg hneg] at h
        obtain ⟨l₁, l₂, rfl, hl₁, herase, hupdate⟩ := ih h
        refine ⟨z :: l₁, l₂, rfl, ?_, ?_, ?_⟩
        · intro y hy
          rcases List.mem_cons.mp hy with rfl | htail
          · exact hneg
          · exact hl₁ y htail
        · rw [List.eraseP_cons_of_neg hneg, herase]
          rfl
        · intro f
          rw [updateFirst, if_neg hneg, hupdate]
          rfl

theorem mem_map_eraseP_iff {p : α → Bool} {key : α → κ} {l : List α} {x : α}
    (hnodup : (l.map key).Nodup) (hfind : l.find? p = some x) {k : κ} :
    k ∈ (l.eraseP p).map key ↔ k ∈ l.map key ∧ k ≠ key x := by
  constructor
  · intro hk
    obtain ⟨y, hy, rfl⟩ := List.mem_map.mp hk
    exact ⟨List.mem_map_of_mem (List.mem_of_mem_eraseP hy), key_ne_of_mem_eraseP hnodup hfind hy⟩
  · rintro ⟨hk, hne⟩
    obtain ⟨l₁, l₂, rfl, -, herase, -⟩ := exists_split hfind
    rw [herase]
    simp only [List.map_append, List.map_cons, List.mem_append, List.mem_cons] at hk ⊢
    rcases hk with hk | rfl | hk
    · exact .inl hk
    · exact absurd rfl hne
    · exact .inr hk

theorem updateFirst_of_find?_eq_none {p : α → Bool} {l : List α} (h : l.find? p = none)
    (f : α → α) : updateFirst p f l = l := by
  induction l with
  | nil => rfl
  | cons z zs ih =>
      have hz : ¬ p z = true := by
        rw [List.find?_eq_none] at h
        exact h z (by simp)
      rw [List.find?_cons_of_neg hz] at h
      rw [updateFirst, if_neg hz, ih h]

theorem find?_eraseP_of_not {p q : α → Bool} {l : List α} {x : α} (h : l.find? p = some x)
    (hq : ¬ q x = true) : (l.eraseP q).find? p = some x := by
  induction l with
  | nil => cases h
  | cons z zs ih =>
      rcases Bool.eq_false_or_eq_true (p z) with hp | hp
      · rw [List.find?_cons_of_pos hp] at h
        obtain rfl := Option.some.inj h
        rw [List.eraseP_cons_of_neg hq, List.find?_cons_of_pos hp]
      · have hneg : ¬ p z = true := by simp [hp]
        rw [List.find?_cons_of_neg hneg] at h
        rcases Bool.eq_false_or_eq_true (q z) with hz | hz
        · rwa [List.eraseP_cons_of_pos hz]
        · rw [List.eraseP_cons_of_neg (by simp [hz]), List.find?_cons_of_neg hneg]
          exact ih h

theorem pairwise_iff_mem_takeWhile {p q : α → Bool} {l : List α} (hnodup : l.Nodup)
    (hpq : ∀ x, p x = true → q x = false) :
    (l.Pairwise fun x y => p x = true → q y = false) ↔
      ∀ y ∈ l, q y = true → y ∈ l.takeWhile fun x => !p x := by
  induction l with
  | nil => simp
  | cons x xs ih =>
      obtain ⟨hx, hxs⟩ := List.nodup_cons.mp hnodup
      rw [List.pairwise_cons, ih hxs]
      cases hp : p x with
      | true =>
          rw [List.takeWhile_cons_of_neg (by simp [hp])]
          constructor
          · rintro ⟨hnone, -⟩ y hy hq
            rcases List.mem_cons.mp hy with rfl | hy
            · simp [hpq y hp] at hq
            · simp [hnone y hy rfl] at hq
          · intro h
            have hnone : ∀ y ∈ xs, q y = false := by
              intro y hy
              by_contra hq
              exact absurd (h y (List.mem_cons_of_mem _ hy) (by simpa using hq)) List.not_mem_nil
            refine ⟨fun y hy _ => hnone y hy, fun y hy hq => ?_⟩
            simp [hnone y hy] at hq
      | false =>
          rw [List.takeWhile_cons_of_pos (by simp [hp])]
          constructor
          · rintro ⟨-, h⟩ y hy hq
            rcases List.mem_cons.mp hy with rfl | hy
            · exact List.mem_cons_self
            · exact List.mem_cons_of_mem _ (h y hy hq)
          · intro h
            refine ⟨by simp, fun y hy hq => ?_⟩
            refine (List.mem_cons.mp (h y (List.mem_cons_of_mem _ hy) hq)).resolve_left ?_
            rintro rfl
            exact hx hy

end FirstMatch
