import GwWeb.TinyQueue

/-!
The mutex of a `tiny_queue` is locked only by a thread that is about to unlock it.
-/

namespace GwWeb.QueueHolder

open GwWeb.TinyQueue (Place Moved)

variable {τ α : Type} {q q' : TinyQueue.State τ α}

theorem link_frame {a : Nat} (h : TinyQueue.link a q = .ok q') :
    ∃ heap head tail, q' = { q with heap, head, tail } := by
  unfold TinyQueue.link at h
  split at h
  · exact ⟨_, _, _, (Except.ok.inj h).symm⟩
  · split at h
    · cases h
    · split at h
      · cases h
      · exact ⟨_, _, _, (Except.ok.inj h).symm⟩

theorem take_frame {x : α} (h : TinyQueue.take q = .ok (x, q')) :
    ∃ heap head tail, q' = { q with heap, head, tail } := by
  unfold TinyQueue.take at h
  split at h
  · cases h
  · split at h
    · cases h
    · split at h
      · exact ⟨_, _, _, (Prod.mk.inj (Except.ok.inj h)).2.symm⟩
      · exact ⟨_, _, _, (Prod.mk.inj (Except.ok.inj h)).2.symm⟩

section Threads

variable [DecidableEq τ] {l : TinyQueue.Label τ α} {t : τ}

/-- The thread that has locked the mutex is where it needs it. -/
def Held (q : TinyQueue.State τ α) : Prop := ∀ t, q.mutex = some t → (q.place t).Holds

theorem Held.moveTo (h : Held q) {q₁ : TinyQueue.State τ α} {p : Place α}
    (hplace : q₁.place = q.place)
    (hmutex : q₁.mutex = some t ∧ p.Holds ∨ q₁.mutex = none ∨
      q₁.mutex = q.mutex ∧ (q.mutex = some t → p.Holds)) :
    Held (TinyQueue.moveTo t p q₁) := by
  intro u hu
  change q₁.mutex = some u at hu
  rw [TinyQueue.moveTo_place, hplace]
  rcases hmutex with ⟨hself, hp⟩ | hnone | ⟨hsame, hp⟩
  · obtain rfl := Option.some.inj (hself.symm.trans hu)
    rwa [Function.update_self]
  · simp [hnone] at hu
  · rw [hsame] at hu
    rcases eq_or_ne u t with rfl | hne
    · rw [Function.update_self]
      exact hp hu
    · rw [Function.update_of_ne hne]
      exact h u hu

omit [DecidableEq τ] in
theorem Held.not_locked (h : Held q) (ht : ¬ (q.place t).Holds) : q.mutex ≠ some t :=
  fun hmutex => ht (h t hmutex)

theorem held_step (h : Held q) (hmoved : Moved q l q') : Held q' := by
  cases hmoved with
  | noMemory => exact h
  | push t data a ht | pop t ht =>
      refine h.moveTo rfl (.inr (.inr ⟨rfl, fun hmutex => ?_⟩))
      have hnot : ¬ (q.place t).Holds := by
        simp [ht, Place.Holds, Place.InSection, Place.AtUnlock]
      exact absurd hmutex (h.not_locked hnot)
  | wake t ht =>
      refine h.moveTo rfl (.inr (.inr ⟨rfl, fun hmutex => ?_⟩))
      have hnot : ¬ (q.place t).Holds := by
        simp [ht, Place.Holds, Place.InSection, Place.AtUnlock]
      exact absurd hmutex (h.not_locked hnot)
  | lockPush | lockPop => exact h.moveTo rfl (.inl ⟨rfl, .inl trivial⟩)
  | link t a data q₁ ht hlink =>
      obtain ⟨heap, head, tail, rfl⟩ := link_frame hlink
      exact h.moveTo rfl (.inr (.inr ⟨rfl, fun _ => .inr trivial⟩))
  | take t data q₁ ht hhead htake =>
      obtain ⟨heap, head, tail, rfl⟩ := take_frame htake
      exact h.moveTo rfl (.inr (.inr ⟨rfl, fun _ => .inr trivial⟩))
  | wait | unlockPush | unlockPop => exact h.moveTo rfl (.inr (.inl rfl))
  | signal t woken ht hwoken hsome =>
      intro u hu
      have hholds := h u hu
      have hnot : u ∉ woken := by
        intro hmem
        rw [hwoken u hmem] at hholds
        simp [Place.Holds, Place.InSection, Place.AtUnlock] at hholds
      have hne : u ≠ t := by
        rintro rfl
        rw [ht] at hholds
        simp [Place.Holds, Place.InSection, Place.AtUnlock] at hholds
      simpa [hnot, hne] using hholds

end Threads

end GwWeb.QueueHolder
