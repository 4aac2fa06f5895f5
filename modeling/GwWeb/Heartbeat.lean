import Mathlib.Data.List.Chain
import Mathlib.Data.List.Perm.Basic
import GwWeb.TransitionRuns

/-!
`timer.c`: each `MSG_TIMEOUT` that the event loop handles arms the timer event behind
the next one.
-/

namespace GwWeb.Heartbeat

open TransitionRuns

/-- An `ngx_event_t` at the event timer, which calls the handler at `due` or later, in
milliseconds. -/
structure NgxEvent where
  addr : Nat
  due : Nat

/-- `MSG_TIMEOUT`, and everything else in the queue. -/
inductive Message where
  | timeout
  | other
  deriving DecidableEq

/-- `ngx_event_t` structures are numbered as they are allocated; `freed` are those that
were freed, and `beats` the times at which `MSG_TIMEOUT` was posted, in order. -/
structure State where
  clock : Nat
  armed : List NgxEvent
  queue : List Message
  allocated : Nat
  freed : List Nat
  beats : List Nat

/-- The delay in the call of `add_event_timer`. -/
def timeout : Nat := 120000

/-- `addTimeOutWorkToTimer`: a new entry, due when `timeout` has passed. -/
def addTimeOutWorkToTimer (s : State) : State :=
  { s with
    armed := s.armed ++ [{ addr := s.allocated, due := s.clock + timeout }]
    allocated := s.allocated + 1 }

/-- The handler of the event `ev`, which is not armed any more when it runs. -/
def checkTaskToTimer (ev : NgxEvent) (s : State) : State :=
  { s with
    queue := s.queue ++ [.timeout]
    freed := s.freed ++ [ev.addr]
    beats := s.beats ++ [s.clock] }

/-- Time passes, an entry fires, a thread posts, or the loop takes a message. -/
inductive Label where
  | pass (ms : Nat)
  | fire (k : Nat)
  | post
  | take

def execute (s : State) : Label → State
  | .pass ms => { s with clock := s.clock + ms }
  | .fire k =>
      match s.armed[k]? with
      | none => s
      | some ev => checkTaskToTimer ev { s with armed := s.armed.eraseIdx k }
  | .post => { s with queue := s.queue ++ [.other] }
  | .take =>
      match s.queue with
      | [] => s
      | .timeout :: queue => addTimeOutWorkToTimer { s with queue }
      | .other :: queue => { s with queue }

/-- The event timer does not call a handler before its time. -/
def Possible (s : State) : Label → Prop
  | .fire k => ∀ ev ∈ s.armed[k]?, ev.due ≤ s.clock
  | _ => True

instance (s : State) (l : Label) : Decidable (Possible s l) :=
  match l with
  | .fire k => inferInstanceAs (Decidable (∀ ev ∈ s.armed[k]?, ev.due ≤ s.clock))
  | .pass _ | .post | .take => isTrue trivial

/-- A step that may be taken, computed. -/
def attempt (s : State) (l : Label) : Option State :=
  if Possible s l then some (execute s l) else none

def Step (s : State) (l : Label) (s' : State) : Prop := attempt s l = some s'

/-- `eventLoop` has made its first call of `addTimeOutWorkToTimer`. -/
structure Started (s : State) : Prop where
  armed : s.armed = [{ addr := 0, due := s.clock + timeout }]
  queue : s.queue = []
  allocated : s.allocated = 1
  freed : s.freed = []
  beats : s.beats = []

/-- Far enough apart. -/
def Spaced (a b : Nat) : Prop := a + timeout ≤ b

/-- The next `MSG_TIMEOUT` waits in the queue, or the one event that is armed is to post
it, before the clock is `timeout` further. -/
inductive Pending (s : State) (last : Nat) : Prop where
  | queued : s.armed = [] → s.queue.count .timeout = 1 → Pending s last
  | armed (ev : NgxEvent) :
      s.armed = [ev] → s.queue.count .timeout = 0 → Spaced last ev.due →
      ev.due ≤ s.clock + timeout → Pending s last

/-- One entry or message is on its way, and what fired is freed once. -/
structure Kept (start : Nat) (s : State) : Prop where
  pending : ∃ last, (start :: s.beats).getLast? = some last ∧ last ≤ s.clock ∧ Pending s last
  spaced : (start :: s.beats).IsChain Spaced
  owned : (s.armed.map NgxEvent.addr ++ s.freed).Perm (List.range s.allocated)

variable {s₀ s s' : State} {l : Label} {start : Nat}

theorem Started.kept (h : Started s) : Kept s.clock s where
  pending := by
    refine ⟨s.clock, by simp [h.beats], le_refl _, .armed _ h.armed (by simp [h.queue]) ?_ ?_⟩
    · exact le_refl _
    · exact le_refl _
  spaced := by
    rw [h.beats]
    exact List.IsChain.singleton s.clock
  owned := by simp [h.armed, h.freed, h.allocated]

theorem Kept.pass (h : Kept start s) (ms : Nat) :
    Kept start { s with clock := s.clock + ms } := by
  obtain ⟨⟨last, hlast, hle, hpending⟩, hspaced, howned⟩ := h
  refine ⟨⟨last, hlast, Nat.le_add_right_of_le hle, ?_⟩, hspaced, howned⟩
  cases hpending with
  | queued harmed hcount => exact .queued harmed hcount
  | armed ev harmed hcount hspace hdue =>
      exact .armed ev harmed hcount hspace (by show ev.due ≤ s.clock + ms + timeout; omega)

theorem Kept.queue (h : Kept start s) {queue : List Message}
    (hqueue : queue.count .timeout = s.queue.count .timeout) : Kept start { s with queue } := by
  obtain ⟨⟨last, hlast, hle, hpending⟩, hspaced, howned⟩ := h
  refine ⟨⟨last, hlast, hle, ?_⟩, hspaced, howned⟩
  cases hpending with
  | queued harmed hcount => exact .queued harmed (hqueue.trans hcount)
  | armed ev harmed hcount hspace hdue =>
      exact .armed ev harmed (hqueue.trans hcount) hspace hdue

theorem Kept.fire (h : Kept start s) {ev : NgxEvent} {k : Nat} (hget : s.armed[k]? = some ev)
    (hdue : ev.due ≤ s.clock) :
    Kept start (checkTaskToTimer ev { s with armed := s.armed.eraseIdx k }) := by
  obtain ⟨⟨last, hlast, -, hpending⟩, hspaced, howned⟩ := h
  cases hpending with
  | queued harmed _ => simp [harmed] at hget
  | armed ev' harmed hcount hspace _ =>
      obtain ⟨rfl, rfl⟩ : k = 0 ∧ ev' = ev := by
        rw [harmed] at hget
        cases k with
        | zero => exact ⟨rfl, Option.some.inj hget⟩
        | succ k => simp at hget
      constructor
      · refine ⟨s.clock, ?_, le_refl _, .queued ?_ ?_⟩
        · show (start :: (s.beats ++ [s.clock])).getLast? = _
          rw [← List.cons_append, List.getLast?_concat]
        · show s.armed.eraseIdx 0 = []
          rw [harmed]
          rfl
        · show (s.queue ++ [Message.timeout]).count .timeout = 1
          rw [List.count_append, hcount]
          rfl
      · show (start :: (s.beats ++ [s.clock])).IsChain Spaced
        rw [← List.cons_append]
        refine hspaced.append (List.IsChain.singleton _) ?_
        intro a ha b hb
        obtain rfl : last = a := Option.some.inj (hlast.symm.trans ha)
        obtain rfl : s.clock = b := Option.some.inj hb
        exact hspace.trans hdue
      · show ((s.armed.eraseIdx 0).map NgxEvent.addr ++ (s.freed ++ [ev'.addr])).Perm _
        refine List.Perm.trans ?_ howned
        rw [harmed]
        exact List.perm_append_singleton _ _

theorem Kept.take (h : Kept start s) {queue : List Message} (hqueue : s.queue = .timeout :: queue) :
    Kept start (addTimeOutWorkToTimer { s with queue }) := by
  obtain ⟨⟨last, hlast, hle, hpending⟩, hspaced, howned⟩ := h
  have hone : s.queue.count .timeout = queue.count .timeout + 1 := by
    rw [hqueue, List.count_cons_self]
  cases hpending with
  | armed _ _ hcount _ _ => omega
  | queued harmed hcount =>
      refine ⟨⟨last, hlast, hle,
        .armed { addr := s.allocated, due := s.clock + timeout } ?_ ?_ ?_ ?_⟩,
        hspaced, ?_⟩
      · show s.armed ++ [_] = _
        rw [harmed]
        rfl
      · show queue.count .timeout = 0
        omega
      · exact Nat.add_le_add_right hle timeout
      · exact le_refl _
      · show ((s.armed ++ [_]).map NgxEvent.addr ++ s.freed).Perm (List.range (s.allocated + 1))
        rw [harmed] at howned ⊢
        rw [List.range_succ]
        exact (howned.cons s.allocated).trans (List.perm_append_singleton _ _).symm

theorem Kept.step (h : Kept start s) (hstep : Step s l s') : Kept start s' := by
  obtain ⟨hpossible, rfl⟩ : Possible s l ∧ execute s l = s' := by
    simpa [Step, attempt] using hstep
  cases l with
  | pass ms => exact h.pass ms
  | fire k =>
      simp only [execute]
      split
      · exact h
      · rename_i ev hev
        exact h.fire hev (hpossible ev hev)
  | post =>
      apply h.queue
      rw [List.count_append]
      rfl
  | take =>
      simp only [execute]
      split
      · exact h
      · rename_i queue hqueue
        exact h.take hqueue
      · rename_i queue hqueue
        apply h.queue
        rw [hqueue]
        rfl

theorem Spaced.elapsed {beats : List Nat} (h : (start :: beats).IsChain Spaced) {last : Nat}
    (hlast : (start :: beats).getLast? = some last) : start + beats.length * timeout ≤ last := by
  induction beats generalizing start with
  | nil =>
      obtain rfl : start = last := Option.some.inj hlast
      simp
  | cons beat beats ih =>
      obtain ⟨hfirst, hrest⟩ := List.isChain_cons_cons.mp h
      have hle := ih hrest (by rwa [List.getLast?_cons_cons] at hlast)
      unfold Spaced at hfirst
      rw [List.length_cons, Nat.add_mul]
      omega

/-- The heartbeat neither doubles nor stops, over every run: the next `MSG_TIMEOUT` is in
the queue, or exactly one timer event is armed for it, due within 120 s; the ones before
it were posted at least 120 s apart; and each event but the armed one was freed once. -/
theorem one_beat_pending {trs : List (Transition State Label)} (hs : Started s₀)
    (hrun : Run Step s₀ trs s) :
    (∃ last, (s₀.clock :: s.beats).getLast? = some last ∧ Pending s last) ∧
      (s₀.clock :: s.beats).IsChain Spaced ∧
      s₀.clock + s.beats.length * timeout ≤ s.clock ∧
      (s.armed.map NgxEvent.addr ++ s.freed).Perm (List.range s.allocated) := by
  have hkeep : ∀ a l b, Kept s₀.clock a → True → Step a l b → Kept s₀.clock b :=
    fun (_ : State) (_ : Label) _ ha _ hstep => ha.step hstep
  obtain ⟨⟨last, hlast, hle, hpending⟩, hspaced, howned⟩ :=
    (hrun.invariant hkeep hs.kept fun _ _ => trivial).2
  exact ⟨⟨last, hlast, hpending⟩, hspaced, (Spaced.elapsed hspaced hlast).trans hle, howned⟩

def startState : State :=
  addTimeOutWorkToTimer
    { clock := 7, armed := [], queue := [], allocated := 0, freed := [], beats := [] }

/-- The loop is late with the first `MSG_TIMEOUT`, behind another message. -/
theorem one_beat_pending_late : ∃ trs s,
    replay attempt startState
      [.pass 120000, .post, .fire 0, .take, .pass 60000, .take, .pass 120000, .fire 0] =
        some (trs, s) ∧
    s.beats = [120007, 300007] ∧
    (∃ last, (startState.clock :: s.beats).getLast? = some last ∧ Pending s last) ∧
    (startState.clock :: s.beats).IsChain Spaced ∧
    startState.clock + s.beats.length * timeout ≤ s.clock ∧
    (s.armed.map NgxEvent.addr ++ s.freed).Perm (List.range s.allocated) := by
  obtain ⟨trs, s, hs, hbeats⟩ : ∃ trs s, replay attempt startState
      [.pass 120000, .post, .fire 0, .take, .pass 60000, .take, .pass 120000, .fire 0] =
        some (trs, s) ∧ s.beats = [120007, 300007] := ⟨_, _, rfl, rfl⟩
  exact ⟨trs, s, hs, hbeats, one_beat_pending ⟨rfl, rfl, rfl, rfl, rfl⟩
    (run_of_replay (fun _ _ _ h => h) hs)⟩

end GwWeb.Heartbeat
