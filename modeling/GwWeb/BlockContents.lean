import Mathlib.Data.List.Nodup
import Mathlib.Data.List.Perm.Basic
import Mathlib.Logic.Function.Basic

/-!
A heap of which everything is known: the blocks in use, and what each one holds.
-/

namespace BlockContents

variable {β : Type*}

/-- These blocks are allocated, with these contents, and no others. -/
structure Exactly (memory : Nat → Option β) (blocks : List (Nat × β)) : Prop where
  nodup : (blocks.map Prod.fst).Nodup
  mem_iff : ∀ a b, memory a = some b ↔ (a, b) ∈ blocks

variable {memory : Nat → Option β} {blocks blocks' : List (Nat × β)} {a : Nat} {b : β}

theorem exactly_nil : Exactly (fun _ => none : Nat → Option β) [] where
  nodup := List.nodup_nil
  mem_iff := by simp

theorem Exactly.read (h : Exactly memory blocks) (hmem : (a, b) ∈ blocks) : memory a = some b :=
  (h.mem_iff a b).mpr hmem

theorem Exactly.vacant_iff (h : Exactly memory blocks) :
    memory a = none ↔ a ∉ blocks.map Prod.fst := by
  constructor
  · intro hnone hmem
    obtain ⟨⟨a', b⟩, hblock, rfl⟩ := List.mem_map.mp hmem
    simp [h.read hblock] at hnone
  · intro hnot
    cases ha : memory a with
    | none => rfl
    | some b => exact absurd (List.mem_map_of_mem ((h.mem_iff a b).mp ha)) hnot

theorem Exactly.perm (h : Exactly memory blocks) (hperm : blocks'.Perm blocks) :
    Exactly memory blocks' where
  nodup := (hperm.map Prod.fst).nodup_iff.mpr h.nodup
  mem_iff := fun a b => (h.mem_iff a b).trans hperm.mem_iff.symm

theorem Exactly.allocate (h : Exactly memory blocks) (ha : memory a = none) (b : β) :
    Exactly (Function.update memory a (some b)) ((a, b) :: blocks) where
  nodup := List.nodup_cons.mpr ⟨h.vacant_iff.mp ha, h.nodup⟩
  mem_iff := by
    intro a' b'
    rw [List.mem_cons, ← h.mem_iff]
    rcases eq_or_ne a' a with rfl | hne
    · rw [Function.update_self]
      simp [ha, eq_comm]
    · rw [Function.update_of_ne hne]
      simp [hne]

theorem Exactly.free (h : Exactly memory ((a, b) :: blocks)) :
    Exactly (Function.update memory a none) blocks where
  nodup := (List.nodup_cons.mp h.nodup).2
  mem_iff := by
    intro a' b'
    have hnot : a ∉ blocks.map Prod.fst := (List.nodup_cons.mp h.nodup).1
    rcases eq_or_ne a' a with rfl | hne
    · rw [Function.update_self]
      have hout : (a', b') ∉ blocks := fun hmem => hnot (List.mem_map_of_mem hmem)
      simp [hout]
    · rw [Function.update_of_ne hne, h.mem_iff, List.mem_cons]
      simp [hne]

end BlockContents
