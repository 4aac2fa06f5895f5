import GwWeb.CountedService
import GwWeb.MirroredRoster

/-!
A service together with the entries that subscribe to it: the switch of an
entry records whether its key is among the users.
-/

namespace Subscription

open CountedService
open MirroredRoster
open Relation

variable {κ : Type*} [DecidableEq κ]

/-- Entries with their switch, and the service for those that are on. -/
structure Ledger (κ : Type*) where
  entries : Entries κ
  service : Service κ

/-- What can be asked. A start is refused when the device does not agree to it,
a `startAnyway` never is, and a `startAgain` lists a user that is listed once
more. -/
inductive Request (κ : Type*) where
  | enter (c : κ)
  | leave (c : κ) (e : Exchange)
  | start (c : κ) (e : Exchange)
  | startAnyway (c : κ) (e : Exchange)
  | startAgain (c : κ) (e : Exchange)
  | stop (c : κ) (e : Exchange)

def act : Request κ → Ledger κ → Ledger κ
  | .enter c, s => { s with entries := s.entries ++ [(c, false)] }
  | .leave c e, s =>
      { entries := s.entries.eraseP fun x => x.1 = c
        service := if isOn c s.entries then s.service.remove c e else s.service }
  | .start c e, s =>
      if s.service.Refuses e then { s with service := s.service.wake e }
      else { entries := switch c true s.entries, service := (s.service.wake e).add c }
  | .startAnyway c e, s =>
      { entries := switch c true s.entries, service := (s.service.wake e).add c }
  | .startAgain c e, s =>
      if s.service.Refuses e then { s with service := s.service.wake e }
      else { entries := switch c true s.entries, service := (s.service.wake e).append c }
  | .stop c e, s =>
      { entries := switch c false s.entries, service := s.service.remove c e }

/-- Who starts is among the entries. -/
def Request.Listed : Request κ → Ledger κ → Prop
  | .start c _, s | .startAnyway c _, s | .startAgain c _, s => c ∈ s.entries.map Prod.fst
  | _, _ => True

/-- Who is switched on, beside the users. -/
def roster (s : Ledger κ) : Roster κ := ⟨s.entries, s.service.users⟩

theorem switchOn_add {s : Ledger κ} {c : κ} (hc : c ∈ s.entries.map Prod.fst)
    (e : Exchange) :
    RosterStep (roster s) ⟨switch c true s.entries, ((s.service.wake e).add c).users⟩ := by
  rw [Service.add_users, Service.wake_users]
  exact .switchOn _ _ c hc

/-- Apart from `startAgain`, a request is a step of the roster or none. -/
theorem roster_act {r : Request κ} {s : Ledger κ} (hr : r.Listed s)
    (hagain : ∀ c e, r = .startAgain c e → c ∉ s.service.users) :
    ReflGen RosterStep (roster s) (roster (act r s)) := by
  cases r with
  | enter c => exact .single (.enter _ _ c)
  | leave c e =>
      apply ReflGen.single
      have hstep := RosterStep.leave s.entries s.service.users c
      rw [← Service.remove_users c e, ← apply_ite Service.users] at hstep
      exact hstep
  | start c e =>
      simp only [act]
      split
      · simp only [roster, Service.wake_users]
        exact .refl
      · exact .single (switchOn_add hr e)
  | startAnyway c e => exact .single (switchOn_add hr e)
  | startAgain c e =>
      simp only [act]
      split
      · simp only [roster, Service.wake_users]
        exact .refl
      · have hstep := switchOn_add hr e
        rw [Service.add_users, Service.wake_users, if_neg (hagain c e rfl)] at hstep
        simp only [roster, Service.append_users, Service.wake_users]
        exact .single hstep
  | stop c e =>
      simp only [roster, act, Service.remove_users]
      exact .single (.switchOff _ _ c)

theorem mirrors_act {r : Request κ} {s : Ledger κ} (h : Mirrors (roster s))
    (hr : r.Listed s) (hagain : ∀ c e, r = .startAgain c e → c ∉ s.service.users) :
    Mirrors (roster (act r s)) := by
  rcases (reflGen_iff ..).mp (roster_act hr hagain) with hsame | hstep
  · rw [hsame]
    exact h
  · exact h.step hstep

theorem covers_act {r : Request κ} {s : Ledger κ} (h : Covers (roster s))
    (hr : r.Listed s) : Covers (roster (act r s)) := by
  rcases Classical.em (∃ c e, r = .startAgain c e ∧ c ∈ s.service.users) with
    ⟨c, e, rfl, hc⟩ | hagain
  · simp only [act]
    split
    · simp only [roster, Service.wake_users]
      exact h
    · have hcovers := (h.step (.switchOn _ _ c hr)).again c
      rw [if_pos hc] at hcovers
      simp only [roster, Service.append_users, Service.wake_users]
      exact hcovers
  · have hact := roster_act hr fun c e hre hc => hagain ⟨c, e, hre, hc⟩
    rcases (reflGen_iff ..).mp hact with hsame | hstep
    · rw [hsame]
      exact h
    · exact h.step hstep

theorem counted_act {s : Ledger κ} (h : s.service.Counted) (r : Request κ) :
    (act r s).service.Counted := by
  cases r with
  | enter c => exact h
  | leave c e =>
      simp only [act]
      split
      · exact h.remove c e
      · exact h
  | start c e =>
      simp only [act]
      split
      · exact h.wake e
      · exact (h.wake e).add c
  | startAnyway c e => exact (h.wake e).add c
  | startAgain c e =>
      simp only [act]
      split
      · exact h.wake e
      · exact (h.wake e).append c
  | stop c e => exact h.remove c e

/-- Starts ask for 1, and stops for 0 or 1. -/
def Request.Proper : Request κ → Prop
  | .enter _ => True
  | .leave _ e | .stop _ e => e.target = 0 ∨ e.target = 1
  | .start _ e | .startAgain _ e => e.target = 1 ∧ (e.agreed = true → e.delivered = true)
  | .startAnyway _ e => e.target = 1 ∧ e.delivered = true

theorem driven_act {r : Request κ} {s : Ledger κ} (h : s.service.Driven)
    (hcount : s.service.Counted) (hr : r.Proper) : (act r s).service.Driven := by
  cases r with
  | enter c => exact h
  | leave c e =>
      simp only [act]
      split
      · exact h.remove hcount c hr
      · exact h
  | start c e =>
      simp only [act]
      split
      · exact h.wake hcount (.inr hr.1)
      · rename_i haccepted
        exact Service.driven_add (h.wake_state_of_not_refuses hcount hr haccepted) c
  | startAnyway c e =>
      exact Service.driven_add (h.wake_state hcount fun _ => ⟨hr.2, hr.1⟩) c
  | startAgain c e =>
      simp only [act]
      split
      · exact h.wake hcount (.inr hr.1)
      · rename_i haccepted
        exact Service.driven_append (h.wake_state_of_not_refuses hcount hr haccepted) c
  | stop c e => exact h.remove hcount c hr

/-- Stops get through, and no start is refused. -/
def Request.Prompts : Request κ → Ledger κ → Prop
  | .leave _ e, _ | .stop _ e, _ => e.target = 0 ∧ e.delivered = true
  | .start _ e, s | .startAgain _ e, s => ¬ s.service.Refuses e
  | _, _ => True

theorem prompt_act {r : Request κ} {s : Ledger κ} (h : s.service.Prompt)
    (hcount : s.service.Counted) (hdriven : s.service.Driven) (hr : r.Prompts s) :
    (act r s).service.Prompt := by
  cases r with
  | enter c => exact h
  | leave c e =>
      simp only [act]
      split
      · exact hdriven.prompt_remove hcount c hr
      · exact h
  | start c e =>
      simp only [act, if_neg hr]
      exact Service.prompt_add c _
  | startAnyway c e => exact Service.prompt_add c _
  | startAgain c e =>
      simp only [act, if_neg hr]
      exact Service.prompt_append c _
  | stop c e => exact hdriven.prompt_remove hcount c hr

/-- A start reaches a device that does not run, and that agrees if it is reached;
what stops is a stop. -/
def Request.Heeded : Request κ → Ledger κ → Prop
  | .enter _, _ => True
  | .leave _ e, _ | .stop _ e, _ => e.target = 0
  | .start _ e, s | .startAnyway _ e, s | .startAgain _ e, s => s.service.Heeds e

theorem confirmed_act {r : Request κ} {s : Ledger κ} (h : s.service.Confirmed)
    (hcount : s.service.Counted) (hproper : r.Proper) (hr : r.Heeded s) :
    (act r s).service.Confirmed := by
  have hrefuse : ∀ e, s.service.Refuses e → e.delivered = false →
      (s.service.wake e).Confirmed := by
    intro e hrefused hundelivered
    unfold Service.wake
    rw [if_pos hrefused.1]
    exact Service.confirmed_control_undelivered hrefused.1 hcount hundelivered
  cases r with
  | enter c => exact h
  | leave c e =>
      simp only [act]
      split
      · exact h.remove hcount c hr
      · exact h
  | start c e =>
      simp only [act]
      split
      · rename_i hrefused
        exact hrefuse e hrefused (hr.undelivered hcount hrefused)
      · rename_i haccepted
        exact Service.confirmed_add
          (h.wake_acknowledged hcount (fun hnone => (hr hnone).1) hproper.1 haccepted) c
  | startAnyway c e =>
      have haccepted : ¬ s.service.Refuses e := by
        intro hrefused
        have hundelivered := hr.undelivered hcount hrefused
        rw [hproper.2] at hundelivered
        cases hundelivered
      exact Service.confirmed_add
        (h.wake_acknowledged hcount (fun hnone => (hr hnone).1) hproper.1 haccepted) c
  | startAgain c e =>
      simp only [act]
      split
      · rename_i hrefused
        exact hrefuse e hrefused (hr.undelivered hcount hrefused)
      · rename_i haccepted
        exact Service.confirmed_append
          (h.wake_acknowledged hcount (fun hnone => (hr hnone).1) hproper.1 haccepted) c
  | stop c e => exact h.remove hcount c hr

end Subscription
