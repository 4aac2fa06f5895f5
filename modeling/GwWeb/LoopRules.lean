import Mathlib.Logic.Relation
import Mathlib.Tactic.Common

/-!
Rules for a `while (1)` loop whose body either goes on with a new state or
leaves the loop with a result.
-/

namespace LoopRules

open Relation

variable {σ ρ : Type*}

/-- At most `fuel` iterations of `body`; `none` when the loop is still going. -/
def runLoop (body : σ → σ ⊕ ρ) : Nat → σ → Option ρ
  | 0, _ => none
  | fuel + 1, s =>
      match body s with
      | .inl s' => runLoop body fuel s'
      | .inr r => some r

/-- The body goes on with state `s'`. -/
def Iterates (body : σ → σ ⊕ ρ) (s s' : σ) : Prop := body s = .inl s'

/-- The loop is at its head in state `s'` at some time after `s`. -/
def Visits (body : σ → σ ⊕ ρ) : σ → σ → Prop := ReflTransGen (Iterates body)

/-- The loop ends after some number of iterations. -/
def Terminates (body : σ → σ ⊕ ρ) (s : σ) : Prop := ∃ fuel r, runLoop body fuel s = some r

variable {body : σ → σ ⊕ ρ} {s s' : σ} {r : ρ}

@[simp] theorem runLoop_zero : runLoop body 0 s = none := rfl

theorem runLoop_of_continue {fuel : Nat} (h : body s = .inl s') :
    runLoop body (fuel + 1) s = runLoop body fuel s' := by
  simp [runLoop, h]

theorem runLoop_of_break {fuel : Nat} (h : body s = .inr r) :
    runLoop body (fuel + 1) s = some r := by
  simp [runLoop, h]

theorem runLoop_mono {fuel : Nat} (h : runLoop body fuel s = some r) (extra : Nat) :
    runLoop body (fuel + extra) s = some r := by
  induction fuel generalizing s with
  | zero => simp at h
  | succ fuel ih =>
      rw [Nat.succ_add]
      cases hbody : body s with
      | inl s' =>
          rw [runLoop_of_continue hbody] at h ⊢
          exact ih h
      | inr r' =>
          rw [runLoop_of_break hbody] at h ⊢
          exact h

theorem visits_refl : Visits body s s := .refl

theorem Visits.cons {t : σ} (h : body s = .inl s') (hrest : Visits body s' t) :
    Visits body s t := .head h hrest

theorem Visits.eq_or_cons {t : σ} (h : Visits body s t) :
    t = s ∨ ∃ s', body s = .inl s' ∧ Visits body s' t := by
  rcases ReflTransGen.cases_head h with heq | ⟨s', hstep, hrest⟩
  · exact .inl heq.symm
  · exact .inr ⟨s', hstep, hrest⟩

theorem Visits.eq_of_break {t : σ} (h : Visits body s t) (hbreak : body s = .inr r) : t = s := by
  rcases h.eq_or_cons with heq | ⟨s', hstep, _⟩
  · exact heq
  · simp [hbreak] at hstep

/-- Invariant rule: what one iteration keeps holds at every head. -/
theorem Visits.invariant {P : σ → Prop} (h : Visits body s s') (hs : P s)
    (hstep : ∀ a b, P a → body a = .inl b → P b) : P s' := by
  induction h with
  | refl => exact hs
  | tail _ hlast ih => exact hstep _ _ ih hlast

theorem exists_visits_of_runLoop {fuel : Nat} (h : runLoop body fuel s = some r) :
    ∃ t, Visits body s t ∧ body t = .inr r := by
  induction fuel generalizing s with
  | zero => simp at h
  | succ fuel ih =>
      cases hbody : body s with
      | inl s' =>
          rw [runLoop_of_continue hbody] at h
          obtain ⟨t, ht, hr⟩ := ih h
          exact ⟨t, ht.cons hbody, hr⟩
      | inr r' =>
          rw [runLoop_of_break hbody] at h
          exact ⟨s, visits_refl, by simpa [hbody] using h⟩

theorem terminates_of_break (h : body s = .inr r) : Terminates body s :=
  ⟨1, r, runLoop_of_break h⟩

theorem terminates_of_continue (h : body s = .inl s') (hrest : Terminates body s') :
    Terminates body s := by
  obtain ⟨fuel, r, hr⟩ := hrest
  exact ⟨fuel + 1, r, by rw [runLoop_of_continue h, hr]⟩

theorem terminates_continue_iff (h : body s = .inl s') :
    Terminates body s ↔ Terminates body s' := by
  constructor
  · rintro ⟨fuel, r, hr⟩
    cases fuel with
    | zero => simp at hr
    | succ fuel => exact ⟨fuel, r, by rwa [runLoop_of_continue h] at hr⟩
  · exact terminates_of_continue h

/-- The loop ends, and each iteration that goes on lowers `m`. -/
def EndsDescending (body : σ → σ ⊕ ρ) (m : σ → Int) (s : σ) : Prop :=
  Terminates body s ∧ ∀ a b, Visits body s a → body a = .inl b → m b < m a

theorem endsDescending_of_break {m : σ → Int} (h : body s = .inr r) :
    EndsDescending body m s := by
  refine ⟨terminates_of_break h, ?_⟩
  intro a b ha hbody
  rw [ha.eq_of_break h] at hbody
  simp [h] at hbody

theorem endsDescending_continue_iff {m : σ → Int} (h : body s = .inl s') :
    EndsDescending body m s ↔ m s' < m s ∧ EndsDescending body m s' := by
  constructor
  · rintro ⟨hterm, hdesc⟩
    exact ⟨hdesc s s' visits_refl h, (terminates_continue_iff h).mp hterm,
      fun a b ha => hdesc a b (ha.cons h)⟩
  · rintro ⟨hlt, hterm, hdesc⟩
    refine ⟨terminates_of_continue h hterm, ?_⟩
    intro a b ha hbody
    rcases ha.eq_or_cons with rfl | ⟨t, ht, hrest⟩
    · obtain rfl : s' = b := by simpa [h] using hbody
      exact hlt
    · obtain rfl : s' = t := by simpa [h] using ht
      exact hdesc a b hrest hbody

theorem not_terminates_of_invariant {P : σ → Prop} (hs : P s)
    (hstep : ∀ a, P a → ∃ b, body a = .inl b ∧ P b) : ¬ Terminates body s := by
  rintro ⟨fuel, r, hr⟩
  induction fuel generalizing s with
  | zero => simp at hr
  | succ fuel ih =>
      obtain ⟨b, hbody, hb⟩ := hstep s hs
      rw [runLoop_of_continue hbody] at hr
      exact ih hb hr

end LoopRules
