import GwWeb.TransitionRuns

/-!
Machines that answer each input with outputs, and runs of another system that follow
such a machine step by step.
-/

namespace OutputMachines

open TransitionRuns

variable {σ ε τ ι ο ο' : Type*}

/-- Each input changes the state and has a list of outputs. -/
structure Machine (τ ι ο : Type*) where
  next : τ → ι → τ
  out : τ → ι → List ο

namespace Machine

variable (M : Machine τ ι ο)

/-- The state behind the inputs. -/
def after (x : τ) (is : List ι) : τ := is.foldl M.next x

/-- All outputs, in order. -/
def outputs : τ → List ι → List ο
  | _, [] => []
  | x, i :: is => M.out x i ++ outputs (M.next x i) is

@[simp] theorem after_nil (x : τ) : M.after x [] = x := rfl

@[simp] theorem after_cons (x : τ) (i : ι) (is : List ι) :
    M.after x (i :: is) = M.after (M.next x i) is := rfl

@[simp] theorem outputs_nil (x : τ) : M.outputs x [] = [] := rfl

@[simp] theorem outputs_cons (x : τ) (i : ι) (is : List ι) :
    M.outputs x (i :: is) = M.out x i ++ M.outputs (M.next x i) is := rfl

theorem after_append (x : τ) (is js : List ι) :
    M.after x (is ++ js) = M.after (M.after x is) js := List.foldl_append

theorem outputs_append (x : τ) (is js : List ι) :
    M.outputs x (is ++ js) = M.outputs x is ++ M.outputs (M.after x is) js := by
  induction is generalizing x with
  | nil => rfl
  | cons i is ih =>
      rw [List.cons_append, outputs_cons, outputs_cons, after_cons, ih, List.append_assoc]

/-- While inputs keep a property of the state under which they are answered one by one,
the outputs are those answers. -/
theorem outputs_of_steady {P : τ → Prop} {answer : ι → List ο} {is : List ι}
    (hkeep : ∀ i ∈ is, ∀ x, P x → P (M.next x i) ∧ M.out x i = answer i) {x : τ} (hx : P x) :
    P (M.after x is) ∧ M.outputs x is = is.flatMap answer := by
  induction is generalizing x with
  | nil => exact ⟨hx, rfl⟩
  | cons i is ih =>
      obtain ⟨hnext, hout⟩ := hkeep i (by simp) x hx
      obtain ⟨hafter, houtputs⟩ := ih (fun j hj => hkeep j (by simp [hj])) hnext
      refine ⟨hafter, ?_⟩
      rw [outputs_cons, hout, houtputs, List.flatMap_cons]

/-- The machine seen through a filter of its outputs. -/
def watch (f : ο → Option ο') : Machine τ ι ο' where
  next := M.next
  out := fun x i => (M.out x i).filterMap f

theorem watch_outputs (f : ο → Option ο') (x : τ) (is : List ι) :
    (M.watch f).outputs x is = (M.outputs x is).filterMap f := by
  induction is generalizing x with
  | nil => rfl
  | cons i is ih =>
      rw [outputs_cons, outputs_cons, List.filterMap_append, ← ih]
      rfl

/-- The guarded steps of a system, which stand for inputs and send outputs, keep a
relation to the states of the machine, and send what the machine would. -/
def Follows (step : σ → ε → σ → Prop) (guard : σ → ε → Prop) (related : σ → τ → Prop)
    (inputs : σ → ε → List ι) (sent : σ → ε → List ο) : Prop :=
  ∀ a e b x, related a x → guard a e → step a e b →
    related b (M.after x (inputs a e)) ∧ sent a e = M.outputs x (inputs a e)

end Machine

/-- What the transitions of a run stand for, or send, in order. -/
def along {α : Type*} (f : σ → ε → List α) (trs : List (Transition σ ε)) : List α :=
  trs.flatMap fun tr => f tr.before tr.label

variable {M : Machine τ ι ο} {step : σ → ε → σ → Prop} {guard : σ → ε → Prop}
  {related : σ → τ → Prop} {inputs : σ → ε → List ι} {sent : σ → ε → List ο}

theorem Machine.Follows.run (h : M.Follows step guard related inputs sent) {s t : σ}
    {trs : List (Transition σ ε)} (hrun : Run step s trs t)
    (hguard : ∀ tr ∈ trs, guard tr.before tr.label) {x : τ} (hx : related s x) :
    related t (M.after x (along inputs trs)) ∧ along sent trs = M.outputs x (along inputs trs) := by
  induction hrun generalizing x with
  | nil s => exact ⟨hx, rfl⟩
  | @cons a b c e trs hstep _ ih =>
      have hfirst := h a e b x hx (hguard ⟨a, e, b⟩ (by simp)) hstep
      obtain ⟨hrest, hsent⟩ := ih (fun tr htr => hguard tr (by simp [htr])) hfirst.1
      simp only [along, List.flatMap_cons, M.after_append, M.outputs_append] at hrest hsent ⊢
      exact ⟨hrest, by rw [hfirst.2, hsent]⟩

end OutputMachines
