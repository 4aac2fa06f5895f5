import Mathlib.Data.List.Nodup
import Mathlib.Logic.Function.Basic
import Mathlib.Tactic.Common

/-!
Singly linked cells on a heap: what is reached from a pointer, and what the writes of a
queue do to it.
-/

namespace LinkedCells

/-- A datum and the address of the next cell. -/
structure Cell (α : Type*) where
  data : α
  next : Option Nat
  deriving DecidableEq

/-- The allocated cells; a pointer that is NULL is `none`. -/
abbrev Heap (α : Type*) := Nat → Option (Cell α)

/-- The addresses and values reached from a pointer, up to the NULL that ends them. -/
inductive Chain {α : Type*} (h : Heap α) : Option Nat → List (Nat × α) → Prop where
  | nil : Chain h none []
  | cons {a : Nat} {x : α} {next : Option Nat} {cells : List (Nat × α)} :
      h a = some ⟨x, next⟩ → Chain h next cells → Chain h (some a) ((a, x) :: cells)

variable {α : Type*} {h h' : Heap α} {p : Option Nat} {cells cells' : List (Nat × α)}
variable {a b : Nat} {x y : α}

theorem Chain.unique (hchain : Chain h p cells) (hchain' : Chain h p cells') :
    cells = cells' := by
  induction hchain generalizing cells' with
  | nil =>
      cases hchain'
      rfl
  | cons hcell _ ih =>
      cases hchain' with
      | cons hcell' hrest' =>
          obtain ⟨rfl, rfl⟩ := Cell.mk.inj (Option.some.inj (hcell.symm.trans hcell'))
          rw [ih hrest']

theorem Chain.eq_none_iff (hchain : Chain h p cells) : p = none ↔ cells = [] := by
  cases hchain with
  | nil => exact iff_of_true rfl rfl
  | cons => exact iff_of_false (by simp) (by simp)

theorem Chain.allocated (hchain : Chain h p cells) :
    ∀ c ∈ cells, ∃ next, h c.1 = some ⟨c.2, next⟩ := by
  induction hchain with
  | nil => simp
  | cons hcell _ ih =>
      intro c hc
      rcases List.mem_cons.mp hc with rfl | htail
      · exact ⟨_, hcell⟩
      · exact ih c htail

theorem Chain.congr (hchain : Chain h p cells) (hsame : ∀ c ∈ cells, h' c.1 = h c.1) :
    Chain h' p cells := by
  induction hchain with
  | nil => exact .nil
  | cons hcell _ ih =>
      refine .cons ?_ (ih fun c hc => hsame c (List.mem_cons_of_mem _ hc))
      rw [hsame _ List.mem_cons_self, hcell]

theorem Chain.drop (hchain : Chain h p cells) (hmem : a ∈ cells.map Prod.fst) :
    ∃ rest, Chain h (some a) rest ∧ rest.length ≤ cells.length := by
  induction hchain with
  | nil => simp at hmem
  | @cons b y next cells hcell hrest ih =>
      rcases List.mem_cons.mp hmem with rfl | htail
      · exact ⟨_, .cons hcell hrest, Nat.le_refl _⟩
      · obtain ⟨rest, hdrop, hle⟩ := ih htail
        exact ⟨rest, hdrop, Nat.le_succ_of_le hle⟩

theorem Chain.nodup (hchain : Chain h p cells) : (cells.map Prod.fst).Nodup := by
  induction hchain with
  | nil => exact List.nodup_nil
  | cons hcell hrest ih =>
      refine List.nodup_cons.mpr ⟨fun hmem => ?_, ih⟩
      obtain ⟨rest, hdrop, hle⟩ := hrest.drop hmem
      have hlength := congrArg List.length (hdrop.unique (.cons hcell hrest))
      rw [List.length_cons] at hlength
      exact absurd hle (by omega)

theorem Chain.concat (hchain : Chain h p (cells ++ [(a, x)])) (hb : h b = some ⟨y, none⟩)
    (hne : b ∉ (cells ++ [(a, x)]).map Prod.fst) :
    Chain (Function.update h a (some ⟨x, some b⟩)) p (cells ++ [(a, x), (b, y)]) := by
  induction cells generalizing p with
  | nil =>
      have hba : b ≠ a := by simpa using hne
      cases hchain with
      | cons hcell hrest =>
          refine .cons (Function.update_self _ _ _) (.cons ?_ .nil)
          rw [Function.update_of_ne hba, hb]
  | cons c cells ih =>
      have hnodup := hchain.nodup
      cases hchain with
      | @cons d z next _ hcell hrest =>
          have hda : d ≠ a := by
            rintro rfl
            simp at hnodup
          refine .cons ?_ (ih hrest ?_)
          · rw [Function.update_of_ne hda, hcell]
          · exact fun hmem => hne (List.mem_cons_of_mem _ hmem)

theorem Chain.uncons (hchain : Chain h (some a) cells) :
    ∃ x next rest, cells = (a, x) :: rest ∧ h a = some ⟨x, next⟩ ∧
      Chain (Function.update h a none) next rest := by
  have hnodup := hchain.nodup
  cases hchain with
  | @cons _ x next rest hcell hrest =>
      refine ⟨x, next, rest, rfl, hcell, hrest.congr fun c hc => ?_⟩
      refine Function.update_of_ne ?_ _ _
      rintro rfl
      simp only [List.map_cons, List.nodup_cons] at hnodup
      exact hnodup.1 (List.mem_map_of_mem hc)

end LinkedCells
