import Mathlib.Tactic.Common

/-!
Runs of a labelled transition system, as the list of transitions taken.
-/

namespace TransitionRuns

variable {σ ε : Type*}

structure Transition (σ ε : Type*) where
  before : σ
  label : ε
  after : σ

/-- `Run step s trs t`: the transitions `trs`, in order, lead from `s` to `t`. -/
inductive Run (step : σ → ε → σ → Prop) : σ → List (Transition σ ε) → σ → Prop where
  | nil (s : σ) : Run step s [] s
  | cons {s t u : σ} {e : ε} {trs : List (Transition σ ε)} :
      step s e t → Run step t trs u → Run step s (⟨s, e, t⟩ :: trs) u

variable {step : σ → ε → σ → Prop} {s t : σ} {trs : List (Transition σ ε)}

theorem Run.step_of_mem (h : Run step s trs t) {tr : Transition σ ε} (htr : tr ∈ trs) :
    step tr.before tr.label tr.after := by
  induction h with
  | nil => simp at htr
  | cons hstep _ ih =>
      rcases List.mem_cons.mp htr with rfl | htail
      · exact hstep
      · exact ih htail

theorem Run.append (h : Run step s trs t) {trs' : List (Transition σ ε)} {u : σ}
    (h' : Run step t trs' u) : Run step s (trs ++ trs') u := by
  induction h with
  | nil s => exact h'
  | cons hfirst _ ih => exact .cons hfirst (ih h')

theorem Run.concat (h : Run step s trs t) {e : ε} {u : σ} (hstep : step t e u) :
    Run step s (trs ++ [⟨t, e, u⟩]) u :=
  h.append (.cons hstep (.nil u))

theorem Run.mono {step' : σ → ε → σ → Prop} (hstep : ∀ a e b, step a e b → step' a e b)
    (h : Run step s trs t) : Run step' s trs t := by
  induction h with
  | nil s => exact .nil s
  | cons hfirst _ ih => exact .cons (hstep _ _ _ hfirst) ih

theorem Run.of_guarded {guard : σ → ε → Prop}
    (h : Run (fun a e b => step a e b ∧ guard a e) s trs t) :
    Run step s trs t ∧ ∀ tr ∈ trs, guard tr.before tr.label :=
  ⟨h.mono fun _ _ _ hstep => hstep.1, fun _ htr => (h.step_of_mem htr).2⟩

/-- A run all of whose transitions meet a guard keeps what guarded steps keep. -/
theorem Run.invariant {Inv : σ → Prop} {guard : σ → ε → Prop}
    (hkeep : ∀ a e b, Inv a → guard a e → step a e b → Inv b)
    (h : Run step s trs t) (hs : Inv s) (hguard : ∀ tr ∈ trs, guard tr.before tr.label) :
    (∀ tr ∈ trs, Inv tr.before ∧ Inv tr.after) ∧ Inv t := by
  induction h with
  | nil => exact ⟨by simp, hs⟩
  | @cons a b c e trs hstep _ ih =>
      have hb := hkeep a e b hs (hguard ⟨a, e, b⟩ (by simp)) hstep
      obtain ⟨hmem, hlast⟩ := ih hb fun tr htr => hguard tr (by simp [htr])
      refine ⟨?_, hlast⟩
      intro tr htr
      rcases List.mem_cons.mp htr with rfl | htail
      · exact ⟨hs, hb⟩
      · exact hmem tr htail

/-- Exact condition for a property of transitions over a whole run: guarded
steps keep the invariant and are good, and the first unguarded step is not. -/
theorem Run.forall_good_iff {Inv : σ → Prop} {guard : σ → ε → Prop} {Good : σ → ε → σ → Prop}
    (hkeep : ∀ a e b, Inv a → guard a e → step a e b → Inv b ∧ Good a e b)
    (hbreak : ∀ a e b, Inv a → ¬ guard a e → step a e b → ¬ Good a e b)
    (h : Run step s trs t) (hs : Inv s) :
    (∀ tr ∈ trs, Good tr.before tr.label tr.after) ↔
      ∀ tr ∈ trs, guard tr.before tr.label := by
  induction h with
  | nil => simp
  | @cons a b c e trs hstep _ ih =>
      simp only [List.forall_mem_cons]
      by_cases hg : guard a e
      · obtain ⟨hb, hgood⟩ := hkeep a e b hs hg hstep
        simp only [hg, hgood, true_and]
        exact ih hb
      · simp only [hg, hbreak a e b hs hg hstep, false_and]

/-- A run, computed from its labels. -/
def replay (execute : σ → ε → Option σ) : σ → List ε → Option (List (Transition σ ε) × σ)
  | s, [] => some ([], s)
  | s, e :: es =>
      (execute s e).bind fun t =>
        (replay execute t es).map fun r => (⟨s, e, t⟩ :: r.1, r.2)

theorem run_of_replay {execute : σ → ε → Option σ}
    (hexecute : ∀ a e b, execute a e = some b → step a e b) {es : List ε}
    (h : replay execute s es = some (trs, t)) : Run step s trs t := by
  induction es generalizing s trs with
  | nil =>
      simp only [replay, Option.some.injEq, Prod.mk.injEq] at h
      obtain ⟨rfl, rfl⟩ := h
      exact .nil s
  | cons e es ih =>
      simp only [replay, Option.bind_eq_some_iff, Option.map_eq_some_iff] at h
      obtain ⟨a, ha, ⟨r, hr, heq⟩⟩ := h
      obtain ⟨rfl, rfl⟩ := Prod.mk.inj heq
      exact .cons (hexecute s e a ha) (ih hr)

section Executable

variable {φ : Type*} {guard possible : σ → ε → Prop} [∀ s e, Decidable (guard s e)]
  [∀ s e, Decidable (possible s e)] {execute : σ → ε → Except φ σ} {es : List ε}

/-- A step is possible, and returns. -/
def Executes (possible : σ → ε → Prop) (execute : σ → ε → Except φ σ) (s : σ) (e : ε) (t : σ) :
    Prop := possible s e ∧ execute s e = .ok t

theorem foldlM_of_run {possible : σ → ε → Prop} {execute : σ → ε → Except φ σ}
    (h : Run (Executes possible execute) s trs t) :
    (trs.map fun tr => tr.label).foldlM execute s = .ok t := by
  induction h with
  | nil => rfl
  | cons hstep _ ih =>
      rw [List.map_cons, List.foldlM_cons, hstep.2]
      exact ih

/-- One step of an executable system, where it is possible and does not fail. -/
def attempt (possible : σ → ε → Prop) [∀ s e, Decidable (possible s e)]
    (execute : σ → ε → Except φ σ) (s : σ) (e : ε) : Option σ :=
  if possible s e then (execute s e).toOption else none

theorem executes_of_attempt (s : σ) (e : ε) (t : σ) (h : attempt possible execute s e = some t) :
    Executes possible execute s e t := by
  unfold attempt at h
  split at h
  · rename_i hpossible
    refine ⟨hpossible, ?_⟩
    cases hexecute : execute s e with
    | error fault => simp [hexecute, Except.toOption] at h
    | ok u => simpa [hexecute, Except.toOption] using h
  · cases h

theorem run_of_attempts (h : replay (attempt possible execute) s es = some (trs, t)) :
    Run (Executes possible execute) s trs t := run_of_replay executes_of_attempt h

theorem run_of_guarded_attempts
    (h : replay (attempt (fun s e => guard s e ∧ possible s e) execute) s es = some (trs, t)) :
    Run (Executes possible execute) s trs t ∧ ∀ tr ∈ trs, guard tr.before tr.label := by
  have hrun := run_of_attempts h
  exact ⟨hrun.mono fun _ _ _ hstep => ⟨hstep.1.2, hstep.2⟩,
    fun tr htr => (hrun.step_of_mem htr).1.1⟩

end Executable

end TransitionRuns
