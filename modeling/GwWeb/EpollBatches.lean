import GwWeb.SessionPointers

/-!
The events that `epoll_wait` returns at once. `runEpollServer` takes them one after the
other, each with the pointer that was registered when `epoll_wait` returned.
-/

namespace GwWeb.EpollBatches

open TransitionRuns
open GwWeb.WebCommon
open GwWeb.SessionThreads
open GwWeb.SessionTeardown

/-- The descriptor of an event: the listening one, the eventfd, or a session's. -/
inductive Event where
  | listen
  | eventFd
  | session (addr : Nat)
  deriving DecidableEq

/-- The threads, and the `events` that the epoll thread has still to take. -/
structure State where
  threads : SessionThreads.State
  events : List Event

/-- The size of `events` in `runEpollServer`. -/
def MAX_EVENTS : Nat := 30

/-- `wait` is the return of `epoll_wait`; `skip` is an event without `EPOLLIN`, or an
`accept` that fails. -/
inductive Label where
  | wait (events : List Event)
  | skip
  | step (l : SessionThreads.Label)

/-- The event in whose branch the epoll thread takes a step. -/
def event? : SessionThreads.Label → Option Event
  | .accept _ _ => some .listen
  | .eventFd => some .eventFd
  | .notify addr => some (.session addr)
  | .recv _ => none
  | .linkDetect _ _ => none
  | .handle _ => none

/-- `epoll_wait` fills `events`; each event is taken from its front. -/
def execute (s : State) : Label → Except Fault State
  | .wait events => .ok { s with events }
  | .skip => .ok { s with events := s.events.tail }
  | .step l => do
      let threads ← SessionThreads.execute s.threads l
      return { threads, events := if (event? l).isSome then s.events.tail else s.events }

/-- An event for a session was registered when `epoll_wait` returned it. -/
def Registered (s : SessionThreads.State) : Event → Prop
  | .session addr => addr ∈ s.interest.map Interest.addr
  | _ => True

/-- A session whose event has been returned is taken whether it is still registered or
not. -/
def Ready (s : SessionThreads.State) : SessionThreads.Label → Prop
  | .notify _ => s.serving = none
  | l => SessionThreads.Possible s l

/-- `epoll_wait` returns sessions that are registered; the epoll thread takes the next
event when it is done with the last one, and waits again behind the last event. -/
def Possible (s : State) : Label → Prop
  | .wait events =>
      s.events = [] ∧ s.threads.serving = none ∧ events.length ≤ MAX_EVENTS ∧
        ∀ e ∈ events, Registered s.threads e
  | .skip => s.events ≠ [] ∧ s.threads.serving = none
  | .step l => (∀ e ∈ event? l, s.events.head? = some e) ∧ Ready s.threads l

abbrev Step : State → Label → State → Prop := Executes Possible execute

/-- The epoll thread posts for a session only while no deletion of it is queued; the
event loop deletes a session only while the epoll thread is not at it and has no event
for it, and the eventfd does not hold its pointer. -/
def KeepsOrder (s : State) : Label → Prop
  | .step l => SessionTeardown.KeepsOrder s.threads l ∧ DeletesFree s.threads l ∧
      ∀ a ∈ deletes s.threads l, .session a ∉ s.events
  | _ => True

/-- What the epoll thread, epoll or a queued message holds a pointer to. -/
def PointsTo (s : State) (a : Nat) : Prop :=
  s.threads.serving = some a ∨ .session a ∈ s.events ∨
    a ∈ s.threads.interest.map Interest.addr ∨ ∃ m ∈ s.threads.queue, session? m = some a

/-- Each session is released once, nothing points to it behind that, and no step reads
it. -/
structure TornDownOnce (s : State) : Prop where
  once : s.threads.server.released.Nodup
  unused : ∀ a ∈ s.threads.server.released, ¬ PointsTo s a
  survived : ∀ l, Possible s l → execute s l ≠ .error .afterFree

/-- The sessions are in order, and an event is for a session that is registered. -/
structure Sound (s : State) : Prop where
  orderly : Orderly s.threads
  pointed : Pointed s.threads
  registered : ∀ e ∈ s.events, Registered s.threads e

instance (s : SessionThreads.State) (e : Event) : Decidable (Registered s e) :=
  match e with
  | .session addr => inferInstanceAs (Decidable (addr ∈ s.interest.map Interest.addr))
  | .listen => isTrue trivial
  | .eventFd => isTrue trivial

instance (s : SessionThreads.State) (l : SessionThreads.Label) : Decidable (Ready s l) :=
  match l with
  | .notify _ => inferInstanceAs (Decidable (s.serving = none))
  | .accept connfd ptr =>
    inferInstanceAs (Decidable (SessionThreads.Possible s (.accept connfd ptr)))
  | .eventFd => inferInstanceAs (Decidable (SessionThreads.Possible s .eventFd))
  | .recv r => inferInstanceAs (Decidable (SessionThreads.Possible s (.recv r)))
  | .linkDetect netStat connfd =>
      inferInstanceAs (Decidable (SessionThreads.Possible s (.linkDetect netStat connfd)))
  | .handle ptr => inferInstanceAs (Decidable (SessionThreads.Possible s (.handle ptr)))

instance (s : State) (l : Label) : Decidable (Possible s l) :=
  match l with
  | .wait _ => inferInstanceAs (Decidable (_ ∧ _ ∧ _ ∧ ∀ e ∈ _, Registered s.threads e))
  | .skip => inferInstanceAs (Decidable (_ ∧ _))
  | .step l => inferInstanceAs (Decidable ((∀ e ∈ event? l, s.events.head? = some e) ∧ _))

instance (s : State) (l : Label) : Decidable (KeepsOrder s l) :=
  match l with
  | .wait _ => isTrue trivial
  | .skip => isTrue trivial
  | .step l =>
      inferInstanceAs (Decidable (SessionTeardown.KeepsOrder s.threads l ∧ DeletesFree s.threads l ∧
        ∀ a ∈ deletes s.threads l, .session a ∉ s.events))

variable {s s' : State} {l : Label} {a : Nat}

theorem Sound.live (h : Sound s) (ha : .session a ∈ s.events) :
    a ∈ s.threads.nodes.map Node.addr := by
  obtain ⟨i, hi, rfl⟩ := List.mem_map.mp (h.registered _ ha)
  obtain ⟨n, hn, haddr, -⟩ := h.pointed.interest i hi
  exact haddr ▸ List.mem_map_of_mem hn

theorem Sound.possible (h : Sound s) {l : SessionThreads.Label} (hl : Possible s (.step l)) :
    SessionThreads.Possible s.threads l := by
  obtain ⟨hevent, hready⟩ := hl
  cases l with
  | notify addr =>
      exact ⟨hready, h.registered _ (List.mem_of_mem_head? (hevent _ rfl))⟩
  | accept | eventFd | recv | linkDetect | handle => exact hready

theorem Sound.step_threads (h : Sound s) {l : SessionThreads.Label} (hstep : Step s (.step l) s') :
    SessionThreads.Step s.threads l s'.threads ∧ ∀ e ∈ s'.events, e ∈ s.events := by
  obtain ⟨threads, hthreads, hok⟩ := bind_eq_ok.mp hstep.2
  obtain rfl := Except.ok.inj hok
  refine ⟨⟨h.possible hstep.1, hthreads⟩, fun e he => ?_⟩
  dsimp only at he
  split at he
  · exact List.mem_of_mem_tail he
  · exact he

theorem Sound.step (h : Sound s) (hguard : KeepsOrder s l) (hstep : Step s l s') : Sound s' := by
  cases l with
  | wait events =>
      obtain ⟨⟨-, -, -, hevents⟩, hok⟩ := hstep
      obtain rfl := Except.ok.inj hok
      exact ⟨h.orderly, h.pointed, hevents⟩
  | skip =>
      obtain rfl := Except.ok.inj hstep.2
      exact ⟨h.orderly, h.pointed, fun e he => h.registered e (List.mem_of_mem_tail he)⟩
  | step l =>
      obtain ⟨hthreads, hevents⟩ := h.step_threads hstep
      obtain ⟨horder, hfree, hunlisted⟩ := hguard
      have hkept := h.pointed.step h.orderly horder hfree hthreads
      refine ⟨h.orderly.step horder hthreads, hkept.pointed, fun e he => ?_⟩
      have hold := hevents e he
      cases e with
      | listen | eventFd => trivial
      | session a =>
          obtain ⟨i, hi, rfl⟩ := List.mem_map.mp (h.registered _ hold)
          exact List.mem_map_of_mem
            (hkept.registered i hi fun hsame => hunlisted _ hsame.symm hold)

theorem Sound.pointsTo_live (h : Sound s) (ha : PointsTo s a) :
    a ∈ s.threads.nodes.map Node.addr := by
  rcases ha with hserving | hevent | hinterest | ⟨m, hm, hcarries⟩
  · exact h.pointed.serving a hserving
  · exact h.live hevent
  · obtain ⟨i, hi, rfl⟩ := List.mem_map.mp hinterest
    obtain ⟨n, hn, haddr, -⟩ := h.pointed.interest i hi
    exact haddr ▸ List.mem_map_of_mem hn
  · exact h.pointed.carried h.orderly hm hcarries

theorem Sound.tornDownOnce (h : Sound s) : TornDownOnce s := by
  refine ⟨h.orderly.held.released, fun a ha hpoints => ?_, fun l hpossible => ?_⟩
  · exact (h.orderly.held.freed a ha).2 (h.pointsTo_live hpoints)
  · cases l with
    | wait | skip => simp [execute]
    | step l =>
        have hsurvives := h.pointed.survives (l := l) h.orderly fun a hl => by
          subst hl
          exact h.live (List.mem_of_mem_head? (hpossible.1 _ rfl))
        intro hfault
        apply hsurvives
        simp only [execute, bind, Except.bind] at hfault
        split at hfault
        · rename_i fault hthreads
          rw [hthreads, Except.error.inj hfault]
        · cases hfault

/-- In a run whose steps meet the condition each session is released at most once;
nothing carries or holds it behind that, and no thread comes to read it. -/
theorem torn_down_once {s₀ s : State} {trs : List (Transition State Label)}
    (hs : Started s₀.threads) (hevents : s₀.events = []) (h : Run Step s₀ trs s)
    (hguard : ∀ tr ∈ trs, KeepsOrder tr.before tr.label) :
    TornDownOnce s ∧ ∀ tr ∈ trs, TornDownOnce tr.before ∧ TornDownOnce tr.after := by
  have hkeep : ∀ a l b, Sound a → KeepsOrder a l → Step a l b → Sound b :=
    fun a l b ha hguard hstep => ha.step hguard hstep
  have hstarted : Sound s₀ :=
    ⟨orderly_started hs, pointed_started hs, fun e he => by simp [hevents] at he⟩
  obtain ⟨hmem, hlast⟩ := h.invariant hkeep hstarted hguard
  exact ⟨hlast.tornDownOnce,
    fun tr htr => ⟨(hmem tr htr).1.tornDownOnce, (hmem tr htr).2.tornDownOnce⟩⟩

def startState (number : Nat) : State := ⟨SessionThreads.startState number, []⟩

/-- A page sends a request and closes; the openwrt session follows a link that goes
up and down. -/
theorem torn_down_once_page_and_link :
    ∃ trs s, Run Step (startState 5) trs s ∧ s.threads.server.released = [1, 0] ∧
      TornDownOnce s := by
  obtain ⟨trs, s, hs, hreleased⟩ :
      ∃ trs s, replay (attempt (fun s l => KeepsOrder s l ∧ Possible s l) execute) (startState 5)
          [.wait [.listen], .step (.accept 7 4096), .wait [.session 0], .step (.notify 0),
            .step (.recv .message), .step (.handle 8192), .step (.recv .closed),
            .step (.linkDetect 1 8), .step (.handle 8192), .step (.handle 8192),
            .step (.handle 8192), .wait [.eventFd], .step .eventFd, .step (.linkDetect 0 0),
            .step (.handle 12288), .step (.handle 12288)] = some (trs, s) ∧
        s.threads.server.released = [1, 0] := ⟨_, _, rfl, rfl⟩
  obtain ⟨hrun, hguard⟩ := run_of_guarded_attempts hs
  exact ⟨trs, s, hrun, hreleased, (torn_down_once (startState_started 5) rfl hrun hguard).1⟩

/-- Two notifications that both see the end of the stream post two deletions; when
the first one is handled, the second carries a pointer to freed memory. -/
theorem closed_twice_not_torn_down_once :
    ∃ trs s, Run Step (startState 5) trs s ∧ s.threads.server.released = [0] ∧
      s.threads.queue = [.delDisconnectUser 0] ∧ Possible s (.step (.handle 8192)) ∧
      execute s (.step (.handle 8192)) = .error .afterFree ∧ ¬ TornDownOnce s := by
  obtain ⟨trs, s, hs, hreleased, hqueue, hpossible, hfault⟩ :
      ∃ trs s, replay (attempt Possible execute) (startState 5)
          [.wait [.listen], .step (.accept 7 4096), .wait [.session 0], .step (.notify 0),
            .step (.recv .closed), .wait [.session 0], .step (.notify 0), .step (.recv .closed),
            .step (.handle 8192), .step (.handle 8192)] = some (trs, s) ∧
        s.threads.server.released = [0] ∧ s.threads.queue = [.delDisconnectUser 0] ∧
        Possible s (.step (.handle 8192)) ∧
        execute s (.step (.handle 8192)) = .error .afterFree :=
    ⟨_, _, rfl, rfl, rfl, by decide, rfl⟩
  refine ⟨trs, s, run_of_attempts hs, hreleased, hqueue, hpossible, hfault, fun hsafe => ?_⟩
  exact hsafe.survived _ hpossible hfault

end GwWeb.EpollBatches
