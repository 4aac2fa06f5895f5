import Mathlib.Data.List.Basic
import Mathlib.Data.List.Nodup
import Mathlib.Data.List.Perm.Basic
import Mathlib.Data.List.Perm.Lattice

/-!
Blocks on a heap, numbered as they are allocated: each one is freed, or has one owner.
-/

namespace BlockOwnership

/-- The blocks that are allocated and not freed are those that are referenced, each by
one reference, and no block is freed twice. -/
structure ExactlyOwned (allocated : Nat) (freed references : List Nat) : Prop where
  live : ∀ b, b < allocated ∧ b ∉ freed ↔ b ∈ references
  single : references.Nodup
  once : freed.Nodup
  known : ∀ b ∈ freed, b < allocated

/-- The same as one list of all blocks. -/
def Owned (allocated : Nat) (freed references : List Nat) : Prop :=
  (freed ++ references).Perm (List.range allocated)

variable {allocated b : Nat} {freed references : List Nat}

theorem owned_iff : Owned allocated freed references ↔ ExactlyOwned allocated freed references := by
  constructor
  · intro h
    have hnodup : (freed ++ references).Nodup := h.nodup_iff.mpr List.nodup_range
    obtain ⟨hfreed, hreferences, hdisjoint⟩ := List.nodup_append.mp hnodup
    have hmem : ∀ b, b ∈ freed ∨ b ∈ references ↔ b < allocated := by
      intro b
      rw [← List.mem_append, h.mem_iff, List.mem_range]
    refine ⟨fun b => ⟨?_, fun hb => ?_⟩, hreferences, hfreed, fun b hb => (hmem b).mp (.inl hb)⟩
    · rintro ⟨hlt, hnot⟩
      exact ((hmem b).mpr hlt).resolve_left hnot
    · exact ⟨(hmem b).mp (.inr hb), fun hin => hdisjoint b hin b hb rfl⟩
  · intro h
    have hnodup : (freed ++ references).Nodup := by
      refine List.nodup_append.mpr ⟨h.once, h.single, ?_⟩
      rintro b hin b' hb rfl
      exact ((h.live b).mpr hb).2 hin
    refine (List.perm_ext_iff_of_nodup hnodup List.nodup_range).mpr fun b => ?_
    rw [List.mem_append, List.mem_range, ← h.live]
    constructor
    · rintro (hin | hb)
      · exact h.known b hin
      · exact hb.1
    · intro hlt
      by_cases hin : b ∈ freed
      · exact .inl hin
      · exact .inr ⟨hlt, hin⟩

theorem owned_empty : Owned 0 [] [] := List.Perm.refl _

theorem Owned.allocate (h : Owned allocated freed references) :
    Owned (allocated + 1) freed (references ++ [allocated]) := by
  rw [Owned, ← List.append_assoc, List.range_succ]
  exact h.append_right _

theorem Owned.free (h : Owned allocated freed (b :: references)) :
    Owned allocated (freed ++ [b]) references := by
  rw [Owned, List.append_assoc]
  exact h

theorem Owned.reorder {references' : List Nat} (h : Owned allocated freed references)
    (hperm : references'.Perm references) : Owned allocated freed references' :=
  (hperm.append_left freed).trans h

theorem Owned.length (h : Owned allocated freed references) :
    freed.length + references.length = allocated := by
  have hlength := h.length_eq
  rwa [List.length_append, List.length_range] at hlength

theorem Owned.not_allocate (h : Owned allocated freed references) :
    ¬ Owned (allocated + 1) freed references := by
  intro hleft
  have := h.length
  have := hleft.length
  omega

theorem Owned.not_drop (h : Owned allocated freed (b :: references)) :
    ¬ Owned allocated freed references := by
  intro hleft
  have := h.length
  have := hleft.length
  simp only [List.length_cons] at *
  omega

/-- Every block is freed once if and only if nothing refers to one any more. -/
theorem Owned.all_freed_iff (h : Owned allocated freed references) :
    (∀ b < allocated, freed.count b = 1) ↔ references = [] := by
  have howned := owned_iff.mp h
  constructor
  · intro hall
    refine List.eq_nil_iff_forall_not_mem.mpr fun b hb => ?_
    obtain ⟨hlt, hnot⟩ := (howned.live b).mpr hb
    have hcount := hall b hlt
    rw [List.count_eq_zero_of_not_mem hnot] at hcount
    exact absurd hcount (by decide)
  · rintro rfl b hlt
    refine List.count_eq_one_of_mem howned.once (by_contra fun hnot => ?_)
    exact List.not_mem_nil ((howned.live b).mp ⟨hlt, hnot⟩)

end BlockOwnership
