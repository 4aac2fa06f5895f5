import Mathlib.Data.List.Basic
import Mathlib.Tactic.Common

/-!
Objects that enter, are used and leave through notices in one queue. An object's
stage is followed through the notices that are still queued.
-/

namespace QueueLifecycle

variable {κ : Type*}

/-- Where an object is in its life. -/
inductive Stage where
  | absent
  | present
  | gone
  deriving DecidableEq

/-- What a message in the queue is to an object. -/
inductive Notice (κ : Type*) where
  | enter (k : κ)
  | use (k : κ)
  | leave (k : κ)
  | other

/-- The notice is about `k`. -/
def Notice.About (k : κ) : Notice κ → Prop
  | .enter j => j = k
  | .use j => j = k
  | .leave j => j = k
  | .other => False

variable [DecidableEq κ]

/-- The stage behind a notice, if the notice may come at this stage. -/
def Stage.after (k : κ) (stage : Stage) : Notice κ → Option Stage
  | .enter j => if j = k then if stage = .absent then some .present else none else some stage
  | .use j => if j = k then if stage = .present then some .present else none else some stage
  | .leave j => if j = k then if stage = .present then some .gone else none else some stage
  | .other => some stage

/-- The stage behind a whole queue. -/
def Stage.through (k : κ) : Stage → List (Notice κ) → Option Stage
  | stage, [] => some stage
  | stage, m :: queue => (stage.after k m).bind fun next => next.through k queue

variable {k : κ} {stage last : Stage} {m : Notice κ} {queue : List (Notice κ)}

theorem through_cons :
    stage.through k (m :: queue) = some last ↔
      ∃ next, stage.after k m = some next ∧ next.through k queue = some last :=
  Option.bind_eq_some_iff

theorem through_concat (queue : List (Notice κ)) (m : Notice κ) :
    stage.through k (queue ++ [m]) = (stage.through k queue).bind fun last => last.after k m := by
  induction queue generalizing stage with
  | nil => cases h : stage.after k m <;> simp [Stage.through, h]
  | cons n queue ih =>
      rw [List.cons_append, Stage.through, Stage.through]
      cases h : stage.after k n with
      | none => rfl
      | some next => exact ih

theorem after_eq_self (h : ¬ m.About k) : stage.after k m = some stage := by
  cases m with
  | other => rfl
  | enter j | use j | leave j => exact if_neg h

theorem after_eq_some {next : Stage} (h : stage.after k m = some next) :
    ¬ m.About k ∧ next = stage ∨
      m = .enter k ∧ stage = .absent ∧ next = .present ∨
      m = .use k ∧ stage = .present ∧ next = .present ∨
      m = .leave k ∧ stage = .present ∧ next = .gone := by
  cases m with
  | other => exact .inl ⟨id, (Option.some.inj h).symm⟩
  | enter j | use j | leave j =>
      simp only [Stage.after] at h
      split at h
      · rename_i hj
        subst hj
        split at h
        · rename_i hstage
          simp [hstage, (Option.some.inj h).symm]
        · cases h
      · rename_i hj
        exact .inl ⟨hj, (Option.some.inj h).symm⟩

theorem through_gone (h : Stage.gone.through k queue = some last) :
    last = .gone ∧ ∀ m ∈ queue, ¬ m.About k := by
  induction queue with
  | nil => exact ⟨(Option.some.inj h).symm, by simp⟩
  | cons n queue ih =>
      obtain ⟨next, hnext, hrest⟩ := through_cons.mp h
      obtain ⟨habout, rfl⟩ | ⟨-, hstage, -⟩ | ⟨-, hstage, -⟩ | ⟨-, hstage, -⟩ :=
        after_eq_some hnext
      · obtain ⟨hlast, hmem⟩ := ih hrest
        exact ⟨hlast, List.forall_mem_cons.mpr ⟨habout, hmem⟩⟩
      · cases hstage
      · cases hstage
      · cases hstage

theorem through_absent (h : stage.through k queue = some .absent) :
    stage = .absent ∧ ∀ m ∈ queue, ¬ m.About k := by
  induction queue generalizing stage with
  | nil => exact ⟨Option.some.inj h, by simp⟩
  | cons n queue ih =>
      obtain ⟨next, hnext, hrest⟩ := through_cons.mp h
      obtain ⟨rfl, hmem⟩ := ih hrest
      obtain ⟨habout, hstage⟩ | ⟨-, -, hstage⟩ | ⟨-, -, hstage⟩ | ⟨-, -, hstage⟩ :=
        after_eq_some hnext
      · exact ⟨hstage.symm, List.forall_mem_cons.mpr ⟨habout, hmem⟩⟩
      · cases hstage
      · cases hstage
      · cases hstage

theorem through_of_not_about (h : ∀ m ∈ queue, ¬ m.About k) :
    stage.through k queue = some stage := by
  induction queue with
  | nil => rfl
  | cons n queue ih =>
      obtain ⟨hn, hqueue⟩ := List.forall_mem_cons.mp h
      rw [Stage.through, after_eq_self hn]
      exact ih hqueue

theorem leave_mem_of_gone (h : stage.through k queue = some .gone) (hstage : stage ≠ .gone) :
    .leave k ∈ queue := by
  induction queue generalizing stage with
  | nil => exact absurd (Option.some.inj h) hstage
  | cons n queue ih =>
      obtain ⟨next, hnext, hrest⟩ := through_cons.mp h
      obtain ⟨-, rfl⟩ | ⟨-, -, rfl⟩ | ⟨-, -, rfl⟩ | ⟨rfl, -, -⟩ := after_eq_some hnext
      · exact List.mem_cons_of_mem _ (ih hrest hstage)
      · exact List.mem_cons_of_mem _ (ih hrest (by simp))
      · exact List.mem_cons_of_mem _ (ih hrest (by simp))
      · exact List.mem_cons_self

end QueueLifecycle
