import Mathlib.Data.List.Basic
import Mathlib.Data.List.Nodup
import Mathlib.Tactic.Common

/-!
A service that runs for as long as it has users: the first user starts a device
and the last one to go stops it. The service counts its users beside listing
them, and remembers whether the device runs.
-/

namespace CountedService

/-- What the device has been told, and whether it confirmed a start. -/
inductive Command where
  | start (acknowledged : Bool)
  | stop
  deriving DecidableEq, Repr

/-- The last command was a start that was confirmed. -/
def Acknowledged (commands : List Command) : Prop := commands.head? = some (.start true)

instance (commands : List Command) : Decidable (Acknowledged commands) :=
  inferInstanceAs (Decidable (_ = _))

/-- One exchange with the device: the state it is to reach, whether it was
reached at all, and whether it agreed. -/
structure Exchange where
  target : Int
  delivered : Bool
  agreed : Bool

/-- The command of an exchange. -/
def Exchange.command (e : Exchange) : Command := if e.target = 0 then .stop else .start e.agreed

/-- A service with users `users`; `commands` has the last command first. -/
structure Service (κ : Type*) where
  state : Int
  cnt : Int
  users : List κ
  commands : List Command

namespace Service

variable {κ : Type*} {v : Service κ} {e : Exchange}

def idle : Service κ := { state := 0, cnt := 0, users := [], commands := [] }

/-- The device is told; the flag changes with a delivered command. -/
def control (e : Exchange) (v : Service κ) : Service κ :=
  { v with
    state := if e.delivered then e.target else v.state
    commands := e.command :: v.commands }

def append (c : κ) (v : Service κ) : Service κ :=
  { v with users := v.users ++ [c], cnt := v.cnt + 1 }

/-- Nobody is counted, and nothing runs. -/
def Idle (v : Service κ) : Prop := v.cnt = 0 ∧ v.state = 0

instance (v : Service κ) : Decidable v.Idle := inferInstanceAs (Decidable (_ ∧ _))

/-- The first user starts the device. -/
def wake (e : Exchange) (v : Service κ) : Service κ := if v.Idle then v.control e else v

/-- The device is asked and does not agree. -/
def Refuses (e : Exchange) (v : Service κ) : Prop := v.Idle ∧ ¬ e.agreed

instance (e : Exchange) (v : Service κ) : Decidable (v.Refuses e) :=
  inferInstanceAs (Decidable (_ ∧ _))

/-- Nobody is counted, and something runs. -/
def Unused (v : Service κ) : Prop := v.cnt = 0 ∧ v.state = 1

instance (v : Service κ) : Decidable v.Unused := inferInstanceAs (Decidable (_ ∧ _))

@[simp] theorem control_users (e : Exchange) (v : Service κ) : (v.control e).users = v.users := rfl

@[simp] theorem control_cnt (e : Exchange) (v : Service κ) : (v.control e).cnt = v.cnt := rfl

@[simp] theorem wake_users (e : Exchange) (v : Service κ) : (v.wake e).users = v.users := by
  unfold wake
  split <;> rfl

@[simp] theorem append_users (c : κ) (v : Service κ) : (v.append c).users = v.users ++ [c] := rfl

/-- The counter is the number of users. -/
def Counted (v : Service κ) : Prop := v.cnt = v.users.length

theorem counted_idle : Counted (Service.idle : Service κ) := rfl

theorem Counted.control (h : v.Counted) (e : Exchange) : (v.control e).Counted := h

theorem Counted.wake (h : v.Counted) (e : Exchange) : (v.wake e).Counted := by
  unfold Service.wake
  split
  · exact h.control e
  · exact h

theorem Counted.append (h : v.Counted) (c : κ) : (v.append c).Counted := by
  simp only [Counted, Service.append, List.length_append, List.length_singleton] at h ⊢
  omega

theorem Counted.cnt_eq_zero_iff (h : v.Counted) : v.cnt = 0 ↔ v.users = [] := by
  rw [h]
  simp

/-- The flag is 0 or 1, and 1 while there are users. -/
structure Driven (v : Service κ) : Prop where
  binary : v.state = 0 ∨ v.state = 1
  running : v.users ≠ [] → v.state = 1

theorem driven_idle : Driven (Service.idle : Service κ) := ⟨.inl rfl, fun h => absurd rfl h⟩

theorem Driven.control (h : v.Driven) (hnone : v.users = [])
    (he : e.target = 0 ∨ e.target = 1) : (v.control e).Driven := by
  refine ⟨?_, fun huser => absurd hnone huser⟩
  simp only [Service.control]
  split
  · exact he
  · exact h.binary

theorem Driven.wake (h : v.Driven) (hcount : v.Counted) (he : e.target = 0 ∨ e.target = 1) :
    (v.wake e).Driven := by
  unfold Service.wake
  split
  · rename_i hidle
    exact h.control (hcount.cnt_eq_zero_iff.mp hidle.1) he
  · exact h

theorem Driven.wake_state (h : v.Driven) (hcount : v.Counted)
    (he : v.Idle → e.delivered = true ∧ e.target = 1) : (v.wake e).state = 1 := by
  unfold Service.wake
  split
  · rename_i hidle
    simp [Service.control, he hidle]
  · rename_i hbusy
    rcases h.binary with hzero | hone
    · apply h.running
      intro hnone
      exact hbusy ⟨hcount.cnt_eq_zero_iff.mpr hnone, hzero⟩
    · exact hone

theorem Driven.wake_state_of_not_refuses (h : v.Driven) (hcount : v.Counted)
    (he : e.target = 1 ∧ (e.agreed = true → e.delivered = true)) (haccepted : ¬ v.Refuses e) :
    (v.wake e).state = 1 := by
  apply h.wake_state hcount
  intro hidle
  refine ⟨he.2 ?_, he.1⟩
  by_contra hagreed
  exact haccepted ⟨hidle, hagreed⟩

theorem driven_append (hone : v.state = 1) (c : κ) : (v.append c).Driven :=
  ⟨.inr hone, fun _ => hone⟩

/-- Without users nothing runs. -/
def Prompt (v : Service κ) : Prop := v.users = [] → v.state = 0

theorem prompt_append (c : κ) (v : Service κ) : (v.append c).Prompt := by
  simp [Prompt]

/-- While there are users the last command is a start that the device agreed to;
if the device runs without any, it is not. -/
structure Confirmed (v : Service κ) : Prop where
  users : v.users ≠ [] → Acknowledged v.commands
  none : v.users = [] → v.state = 1 → ¬ Acknowledged v.commands

theorem confirmed_idle : Confirmed (Service.idle : Service κ) :=
  ⟨fun h => absurd rfl h, fun _ h => by cases h⟩

theorem Confirmed.wake_acknowledged (h : v.Confirmed) (hcount : v.Counted)
    (hnone : v.users = [] → v.state = 0) (he : e.target = 1) (haccepted : ¬ v.Refuses e) :
    Acknowledged (v.wake e).commands := by
  unfold Service.wake
  split
  · rename_i hidle
    have hagreed : e.agreed = true := by
      by_contra hagreed
      exact haccepted ⟨hidle, hagreed⟩
    simp [Service.control, Exchange.command, he, hagreed, Acknowledged]
  · rename_i hbusy
    apply h.users
    intro husers
    exact hbusy ⟨hcount.cnt_eq_zero_iff.mpr husers, hnone husers⟩

theorem confirmed_append (hack : Acknowledged v.commands) (c : κ) : (v.append c).Confirmed :=
  ⟨fun _ => hack, by simp⟩

/-- A service without users does not run, and its device agrees if it is reached. -/
def Heeds (v : Service κ) (e : Exchange) : Prop :=
  v.users = [] → v.state = 0 ∧ (e.delivered = true → e.agreed = true)

theorem Heeds.undelivered (h : v.Heeds e) (hcount : v.Counted) (hrefused : v.Refuses e) :
    e.delivered = false := by
  have hnone := hcount.cnt_eq_zero_iff.mp hrefused.1.1
  rcases Bool.eq_false_or_eq_true e.delivered with hdelivered | hdelivered
  · exact absurd ((h hnone).2 hdelivered) hrefused.2
  · exact hdelivered

theorem confirmed_control_undelivered (hidle : v.Idle) (hcount : v.Counted)
    (he : e.delivered = false) : (v.control e).Confirmed := by
  have hnone := hcount.cnt_eq_zero_iff.mp hidle.1
  refine ⟨fun huser => absurd hnone huser, fun _ hone => ?_⟩
  simp [Service.control, he, hidle.2] at hone

variable [DecidableEq κ]

/-- A user is added unless it is there. -/
def add (c : κ) (v : Service κ) : Service κ := if c ∈ v.users then v else v.append c

/-- A user goes, and is uncounted if it was there. -/
def unlist (c : κ) (v : Service κ) : Service κ :=
  { v with users := v.users.erase c, cnt := if c ∈ v.users then v.cnt - 1 else v.cnt }

/-- A user goes, and the last one stops the device. -/
def remove (c : κ) (e : Exchange) (v : Service κ) : Service κ :=
  if (v.unlist c).Unused then (v.unlist c).control e else v.unlist c

theorem add_users (c : κ) (v : Service κ) :
    (v.add c).users = if c ∈ v.users then v.users else v.users ++ [c] := by
  unfold add
  split <;> rfl

@[simp] theorem add_state (c : κ) (v : Service κ) : (v.add c).state = v.state := by
  unfold add
  split <;> rfl

@[simp] theorem add_commands (c : κ) (v : Service κ) : (v.add c).commands = v.commands := by
  unfold add
  split <;> rfl

theorem add_users_ne_nil (c : κ) (v : Service κ) : (v.add c).users ≠ [] := by
  rw [add_users]
  split
  · rename_i hc
    exact List.ne_nil_of_mem hc
  · simp

@[simp] theorem remove_users (c : κ) (e : Exchange) (v : Service κ) :
    (v.remove c e).users = v.users.erase c := by
  unfold remove
  split <;> rfl

theorem remove_state (c : κ) (e : Exchange) (v : Service κ) :
    (v.remove c e).state = v.state ∨ (v.remove c e).state = e.target := by
  unfold remove
  split
  · simp only [control]
    split
    · exact .inr rfl
    · exact .inl rfl
  · exact .inl rfl

theorem Counted.add (h : v.Counted) (c : κ) : (v.add c).Counted := by
  unfold Service.add
  split
  · exact h
  · exact h.append c

theorem Counted.unlist (h : v.Counted) (c : κ) : (v.unlist c).Counted := by
  simp only [Counted, Service.unlist, List.length_erase] at h ⊢
  split
  · rename_i hc
    have hpos := List.length_pos_of_mem hc
    omega
  · exact h

theorem Counted.remove (h : v.Counted) (c : κ) (e : Exchange) : (v.remove c e).Counted := by
  unfold Service.remove
  split
  · exact (h.unlist c).control e
  · exact h.unlist c

theorem driven_add (hone : v.state = 1) (c : κ) : (v.add c).Driven :=
  ⟨.inr (by simpa using hone), fun _ => by simpa using hone⟩

theorem Driven.unlist (h : v.Driven) (c : κ) : (v.unlist c).Driven := by
  refine ⟨h.binary, fun huser => h.running ?_⟩
  rintro hnone
  simp [Service.unlist, hnone] at huser

theorem Driven.remove (h : v.Driven) (hcount : v.Counted) (c : κ)
    (he : e.target = 0 ∨ e.target = 1) : (v.remove c e).Driven := by
  unfold Service.remove
  split
  · rename_i hunused
    exact (h.unlist c).control ((hcount.unlist c).cnt_eq_zero_iff.mp hunused.1) he
  · exact h.unlist c

theorem prompt_add (c : κ) (v : Service κ) : (v.add c).Prompt :=
  fun hnone => absurd hnone (add_users_ne_nil c v)

theorem Driven.prompt_remove (h : v.Driven) (hcount : v.Counted) (c : κ)
    (he : e.target = 0 ∧ e.delivered = true) : (v.remove c e).Prompt := by
  intro hnone
  have hcnt : (v.unlist c).cnt = 0 := by
    rw [(hcount.unlist c).cnt_eq_zero_iff, ← hnone, remove_users]
    rfl
  unfold Service.remove
  split
  · simp [Service.control, he]
  · rename_i hused
    rcases (h.unlist c).binary with hzero | hone
    · exact hzero
    · exact absurd ⟨hcnt, hone⟩ hused

theorem confirmed_add (hack : Acknowledged v.commands) (c : κ) : (v.add c).Confirmed :=
  ⟨fun _ => by simpa using hack, fun hnone => absurd hnone (add_users_ne_nil c v)⟩

theorem Confirmed.remove (h : v.Confirmed) (hcount : v.Counted) (c : κ) (he : e.target = 0) :
    (v.remove c e).Confirmed := by
  have hnil := (hcount.unlist c).cnt_eq_zero_iff
  unfold Service.remove
  split
  · rename_i hunused
    refine ⟨fun huser => absurd (hnil.mp hunused.1) huser, fun _ _ => ?_⟩
    simp [Service.control, Exchange.command, he, Acknowledged]
  · rename_i hused
    refine ⟨fun huser => h.users ?_, fun hnone hone => ?_⟩
    · rintro hnone
      simp [Service.unlist, hnone] at huser
    · exact absurd ⟨hnil.mpr hnone, hone⟩ hused

end Service

end CountedService
