import GwWeb.BookRuns

/-!
The two modes of the DMA engine. They meet exactly when the constellation is
started while CSI runs without users, as it does behind a failed start.
-/

namespace GwWeb.DmaMode

open CountedService
open TransitionRuns
open GwWeb.DmaHandler
open GwWeb.EventProcess
open GwWeb.UserBook
open GwWeb.BookRefinement
open GwWeb.BookRuns

/-- The engine is in both modes. -/
def BothModes (g : GDmaPara) : Prop := g.csiState = 1 ∧ g.constellationState = 1

theorem iqRegisterCallback_of_bothModes {g : GDmaPara} (h : BothModes g) (buf : List UInt8) :
    iqRegisterCallback buf g = none := by
  simp [iqRegisterCallback, h.1, h.2]

/-- The constellation is not asked for while CSI runs without users. -/
def CsiNotLeftRunning (s : State) (l : Label) : Prop :=
  ∀ connfd, l.event = .startConstellation connfd →
    ¬ (s.dma.csiState = 1 ∧ s.dma.csiUserNodeHead = [])

/-- At most one of CSI and the constellation is on, with the devices that belong to it. -/
structure OneMode (b : Book) : Prop where
  kept : b.Kept
  csi : b.csi.Driven
  constell : b.constell.Driven
  prompt : b.constell.Prompt
  apart : ¬ (b.csi.state = 1 ∧ b.constell.state = 1)

theorem oneMode_empty : OneMode Book.empty :=
  ⟨kept_empty, Service.driven_idle, Service.driven_idle, fun _ => rfl,
    by simp [Book.empty, Service.idle]⟩

section Actions

variable {b : Book} {a : Action}

theorem removed_state {v : Service Int} (connfd : Int)
    (h : (v.remove connfd stopExchange).state = 1) : v.state = 1 := by
  rcases v.remove_state connfd stopExchange with hsame | hstop
  · rw [← hsame]
    exact h
  · rw [h] at hstop
    cases hstop

/-- CSI starts only where the constellation has no users, so it is not running;
the guard is for the other way round. -/
theorem apart_act (h : OneMode b) (hstops : StopsDma a)
    (hguard : ∀ connfd e, a = .startConstell connfd e → ¬ (b.csi.state = 1 ∧ b.csi.users = [])) :
    ¬ ((b.act a).csi.state = 1 ∧ (b.act a).constell.state = 1) := by
  have hcsi : b.csi.users = [] ↔ ¬ ∃ n ∈ b.sessions, n.csi = 1 :=
    users_eq_nil_iff (h.kept.mirrors .csi (by decide))
  have hconstell : b.constell.users = [] ↔ ¬ ∃ n ∈ b.sessions, n.constell = 1 :=
    users_eq_nil_iff (h.kept.mirrors .constell (by decide))
  cases a with
  | enter connfd => exact h.apart
  | leave connfd e₁ e₂ e₃ =>
      obtain ⟨rfl, rfl⟩ := hstops
      simp only [Book.act, Book.leave]
      split
      · exact h.apart
      · rintro ⟨hcsi', hconstell'⟩
        refine h.apart ⟨?_, ?_⟩
        · dsimp only at hcsi'
          split at hcsi'
          · exact removed_state connfd hcsi'
          · exact hcsi'
        · dsimp only at hconstell'
          split at hconstell'
          · exact removed_state connfd hconstell'
          · exact hconstell'
  | openRssi connfd e =>
      simp only [Book.act, Book.openRssi]
      split <;> exact h.apart
  | startCsi connfd e =>
      simp only [Book.act, Book.startCsi]
      split
      · exact h.apart
      · rename_i hfree
        have hzero : b.constell.state = 0 := h.prompt (hconstell.mpr hfree)
        split <;> simp [hzero]
  | stopCsi connfd e =>
      obtain rfl := hstops
      rintro ⟨hcsi', hconstell'⟩
      exact h.apart ⟨removed_state connfd hcsi', hconstell'⟩
  | startConstell connfd e =>
      simp only [Book.act, Book.startConstell]
      split
      · exact h.apart
      · rename_i hfree
        rintro ⟨hcsi', -⟩
        exact hguard connfd e rfl ⟨hcsi', hcsi.mpr hfree⟩
  | stopConstell connfd e =>
      obtain rfl := hstops
      rintro ⟨hcsi', hconstell'⟩
      exact h.apart ⟨hcsi', removed_state connfd hconstell'⟩

end Actions

section Events

variable {s s' : State} {l : Label}

theorem oneMode_step (hp : s.dma.pAxidma = true) (h : OneMode (book s))
    (hguard : CsiNotLeftRunning s l) (hstep : Step s l s') : OneMode (book s') := by
  apply eventLoop_induction hp hstep h
  intro b a ha hb
  have hproper : ∀ k, k ≠ .rssi → ∀ r, a.request b k = some r → r.Proper :=
    fun k hk r hr => ha.proper (fun heq => absurd heq hk) hr
  refine ⟨hb.kept.act (ha.listed hstep.1), ?_, ?_, ?_, apart_act hb ha.stopsDma ?_⟩
  · exact driven_book_act (k := .csi) hb.csi hb.kept (hproper .csi (by decide))
  · exact driven_book_act (k := .constell) hb.constell hb.kept (hproper .constell (by decide))
  · apply prompt_book_act (k := .constell) hb.prompt hb.kept hb.constell
    intro r hr
    apply request_prompts (by decide) ha.stopsDma hr
    rintro connfd e rfl
    cases a <;> simp [Action.request] at hr
  · rintro connfd e rfl
    cases ha with
    | startConstell connfd hl =>
        rintro ⟨hstate, hnone⟩
        refine hguard connfd hl ⟨hstate, ?_⟩
        simpa [book, csiService] using hnone

theorem bothModes_of_csi_left_running (hp : s.dma.pAxidma = true) (h : OneMode (book s))
    (hguard : ¬ CsiNotLeftRunning s l) (hstep : Step s l s') : BothModes s'.dma := by
  simp only [CsiNotLeftRunning, not_forall, not_not] at hguard
  obtain ⟨connfd, hl, hstate, hnone⟩ := hguard
  rcases l with ⟨event, r⟩
  subst hl
  have hfree : ¬ ∃ n ∈ (book s).sessions, n.csi = 1 := by
    apply (users_eq_nil_iff (h.kept.mirrors .csi (by decide))).mp
    simp [Book.service, book, csiService, hnone]
  have hbook : book s' = (book s).startConstell connfd (startExchange r.start) := by
    rw [← Except.ok.inj hstep.2]
    exact (handleStartConstellation_book connfd r hp).1
  have hrunning : ((book s).constell.wake (startExchange r.start)).state = 1 :=
    h.constell.wake_state (h.kept.counted .constell) fun _ => ⟨rfl, rfl⟩
  have hcsi : (book s').csi.state = 1 := by
    have hsame : (book s').csi = (book s).csi := by
      rw [hbook]
      simp [Book.startConstell, hfree]
    rw [hsame]
    exact hstate
  have hconstell : (book s').constell.state = 1 := by
    rw [hbook]
    simpa [Book.startConstell, hfree] using hrunning
  exact ⟨hcsi, hconstell⟩

end Events

/-- Along a run the engine is never in both modes exactly when the constellation
is never asked for while CSI runs without users. -/
theorem modes_exclusive_iff {s s' : State} {trs : List (Transition State Label)}
    (hs : Started s) (h : Run Step s trs s') :
    (∀ tr ∈ trs, ¬ BothModes tr.after.dma) ↔
      ∀ tr ∈ trs, CsiNotLeftRunning tr.before tr.label := by
  obtain ⟨hempty, hp, -⟩ := started_book hs
  have hdevice : ∀ a, constants a = constants s → a.dma.pAxidma = true := fun a hconst =>
    (congrArg (fun c => c.2.1) hconst).trans hp
  have hkeep : ∀ a l b, OneMode (book a) ∧ constants a = constants s → CsiNotLeftRunning a l →
      Step a l b → (OneMode (book b) ∧ constants b = constants s) ∧ ¬ BothModes b.dma := by
    rintro a l b ⟨ha, hconst⟩ hguard hstep
    have hb := oneMode_step (hdevice a hconst) ha hguard hstep
    exact ⟨⟨hb, (eventLoop_book (hdevice a hconst) hstep).2.trans hconst⟩, hb.apart⟩
  have hbreak : ∀ a l b, OneMode (book a) ∧ constants a = constants s → ¬ CsiNotLeftRunning a l →
      Step a l b → ¬ ¬ BothModes b.dma := by
    rintro a l b ⟨ha, hconst⟩ hguard hstep
    exact not_not.mpr (bothModes_of_csi_left_running (hdevice a hconst) ha hguard hstep)
  have hstart : OneMode (book s) := by
    rw [hempty]
    exact oneMode_empty
  exact h.forall_good_iff hkeep hbreak ⟨hstart, rfl⟩

/-- Connection 7 uses CSI, then 8 the constellation. -/
theorem modes_exclusive_one_after_the_other :
    ∃ trs s, replay survive (startState ⟨"dev", "1"⟩ ⟨"dev", "0"⟩)
        [⟨.acceptNewUser 7, .success⟩, ⟨.acceptNewUser 8, .success⟩, ⟨.startCsi 7, .success⟩,
          ⟨.stopCsi 7, .success⟩, ⟨.startConstellation 8, .success⟩] = some (trs, s) ∧
      ((∀ tr ∈ trs, ¬ BothModes tr.after.dma) ↔
        ∀ tr ∈ trs, CsiNotLeftRunning tr.before tr.label) := by
  obtain ⟨trs, s, hs⟩ : ∃ trs s, replay survive (startState ⟨"dev", "1"⟩ ⟨"dev", "0"⟩)
      [⟨.acceptNewUser 7, .success⟩, ⟨.acceptNewUser 8, .success⟩, ⟨.startCsi 7, .success⟩,
        ⟨.stopCsi 7, .success⟩, ⟨.startConstellation 8, .success⟩] = some (trs, s) := ⟨_, _, rfl⟩
  exact ⟨trs, s, hs, modes_exclusive_iff (startState_started _ _)
    (run_of_replay step_of_survive hs)⟩

/-- CSI fails to start for connection 7, which then starts the constellation. -/
theorem constellation_after_failed_csi :
    ∃ trs s, Run Step (startState ⟨"dev", "1"⟩ ⟨"dev", "0"⟩) trs s ∧
      trs.map (fun tr => tr.label) =
        [⟨.acceptNewUser 7, .success⟩, ⟨.startCsi 7, .failedStart⟩,
          ⟨.startConstellation 7, .success⟩] ∧
      BothModes s.dma := by
  obtain ⟨trs, s, hs, hlabels, hcsi, hconstell⟩ :
      ∃ trs s, replay survive (startState ⟨"dev", "1"⟩ ⟨"dev", "0"⟩)
          [⟨.acceptNewUser 7, .success⟩, ⟨.startCsi 7, .failedStart⟩,
            ⟨.startConstellation 7, .success⟩] = some (trs, s) ∧
        trs.map (fun tr => tr.label) =
          [⟨.acceptNewUser 7, .success⟩, ⟨.startCsi 7, .failedStart⟩,
            ⟨.startConstellation 7, .success⟩] ∧
        s.dma.csiState = 1 ∧ s.dma.constellationState = 1 := ⟨_, _, rfl, rfl, rfl, rfl⟩
  exact ⟨trs, s, run_of_replay step_of_survive hs, hlabels, hcsi, hconstell⟩

end GwWeb.DmaMode
