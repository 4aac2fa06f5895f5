import GwWeb.BookRuns

/-!
The three start calls against the device behind them: what a call reports, and
what it leaves behind when the device does not start.
-/

namespace GwWeb.DeviceStart

open CountedService
open Subscription
open TransitionRuns
open GwWeb.WebCommon
open GwWeb.MosquittoBroker
open GwWeb.DmaHandler
open GwWeb.EventProcess
open GwWeb.UserBook
open GwWeb.BookRefinement
open GwWeb.BookRuns

/-- A start call that returned `ret` and took the module from `v` to `v'`: it
succeeds or adds a user only if the last command was an acknowledged start, and if
its own start failed it says so and leaves state, users and counter alone. -/
structure HonestStart {κ : Type} (ret : Int) (v v' : Service κ) : Prop where
  acknowledged : ret = 0 ∨ v'.users ≠ v.users → Acknowledged v'.commands
  unchanged : v'.commands = .start false :: v.commands →
    ret ≠ 0 ∧ v'.state = v.state ∧ v'.users = v.users ∧ v'.cnt = v.cnt

/-- The RSSI samples with their user nodes. -/
def rssiModule (g : GBrokerPara) : Service UserNode :=
  { rssiService g with users := g.rssiUserNodeHead }

def csiModule (g : GDmaPara) : Service UserNode :=
  { csiService g with users := g.csiUserNodeHead }

def constellModule (g : GDmaPara) : Service UserNode :=
  { constellService g with users := g.constellUserNodeHead }

/-- The start call of a message is honest. -/
def HonestStarts (s : State) (l : Label) : Prop :=
  match l.event with
  | .inquiryRssi connfd =>
      ∀ ret g, openRssiStateExternal connfd l.replies.transfer s.broker = .ok (ret, g) →
        HonestStart ret (rssiModule s.broker) (rssiModule g)
  | .startCsi connfd =>
      checkConstellWorking s.server ≠ 1 →
        HonestStart (startCsiStateExternal connfd l.replies.start s.dma).1 (csiModule s.dma)
          (csiModule (startCsiStateExternal connfd l.replies.start s.dma).2)
  | .startConstellation connfd =>
      checkCsiWorking s.server ≠ 1 →
        HonestStart (startConstellationExternal connfd l.replies.start s.dma).1
          (constellModule s.dma)
          (constellModule (startConstellationExternal connfd l.replies.start s.dma).2)
  | _ => True

/-- A start call that contacts the device is answered with success, or for RSSI
not at all; and RSSI is not left running without users. -/
def DeviceAgrees (s : State) (l : Label) : Prop :=
  match l.event with
  | .inquiryRssi _ =>
      s.broker.rssiUserCnt = 0 →
        s.broker.rssiState = 0 ∧
          (l.replies.transfer.Delivered → l.replies.transfer.stat = some "0")
  | .startCsi _ =>
      checkConstellWorking s.server ≠ 1 → s.dma.csiUserCnt = 0 → s.dma.csiState = 0 →
        l.replies.start.start = 0
  | .startConstellation _ =>
      checkCsiWorking s.server ≠ 1 → s.dma.constellationUserCnt = 0 →
        s.dma.constellationState = 0 → l.replies.start.start = 0
  | _ => True

section HonestStart

variable {κ : Type} {ret : Int} {v v' : Service κ}

theorem honestStart_of_acknowledged (h : Acknowledged v'.commands) : HonestStart ret v v' := by
  refine ⟨fun _ => h, fun hfailed => ?_⟩
  rw [hfailed] at h
  cases h

theorem honestStart_of_unchanged (hret : ret ≠ 0)
    (h : v'.state = v.state ∧ v'.users = v.users ∧ v'.cnt = v.cnt) : HonestStart ret v v' :=
  ⟨fun hsuccess => (hsuccess.elim hret fun hadded => hadded h.2.1).elim, fun _ => ⟨hret, h⟩⟩

end HonestStart

/-- A service with users runs, and the device has confirmed it. -/
structure Honoured (b : Book) : Prop where
  kept : b.Kept
  driven : ∀ k, (b.service k).Driven
  confirmed : ∀ k, (b.service k).Confirmed
  prompt : ∀ k, k ≠ .rssi → (b.service k).Prompt

theorem honoured_empty : Honoured Book.empty where
  kept := kept_empty
  driven := by intro k; cases k <;> exact Service.driven_idle
  confirmed := by intro k; cases k <;> exact Service.confirmed_idle
  prompt := by intro k _; cases k <;> exact fun _ => rfl

section Events

variable {s s' : State} {l : Label}

theorem heeds_openRssi {connfd : Int} (h : Honoured (book s)) (hguard : DeviceAgrees s l)
    (hl : l.event = .inquiryRssi connfd) :
    (book s).rssi.Heeds (transferExchange s.broker.rssiOpenJson l.replies.transfer) := by
  intro hnone
  simp only [DeviceAgrees, hl] at hguard
  obtain ⟨hstate, hstat⟩ := hguard ((h.kept.counted .rssi).cnt_eq_zero_iff.mpr hnone)
  refine ⟨hstate, fun hdelivered => ?_⟩
  simp only [transferExchange, decide_eq_true_eq] at hdelivered ⊢
  simp [TransferReply.code, hdelivered, hstat hdelivered]

theorem heeds_startCsi {connfd : Int} (h : Honoured (book s)) (hguard : DeviceAgrees s l)
    (hl : l.event = .startCsi connfd) (hfree : ¬ ∃ n ∈ (book s).sessions, n.constell = 1) :
    (book s).csi.Heeds (startExchange l.replies.start) := by
  intro hnone
  have hstate := h.prompt .csi (by decide) hnone
  refine ⟨hstate, fun _ => ?_⟩
  simp only [DeviceAgrees, hl, ne_eq, checkConstellWorking_iff] at hguard
  have hstart := hguard hfree ((h.kept.counted .csi).cnt_eq_zero_iff.mpr hnone) hstate
  simp [startExchange, hstart]

theorem heeds_startConstell {connfd : Int} (h : Honoured (book s)) (hguard : DeviceAgrees s l)
    (hl : l.event = .startConstellation connfd)
    (hfree : ¬ ∃ n ∈ (book s).sessions, n.csi = 1) :
    (book s).constell.Heeds (startExchange l.replies.start) := by
  intro hnone
  have hstate := h.prompt .constell (by decide) hnone
  refine ⟨hstate, fun _ => ?_⟩
  simp only [DeviceAgrees, hl, ne_eq, checkCsiWorking_iff] at hguard
  have hstart := hguard hfree ((h.kept.counted .constell).cnt_eq_zero_iff.mpr hnone) hstate
  simp [startExchange, hstart]

theorem request_heeded {a : Action} {b : Book} {k : Kind} {r : Request Int}
    (hclose : s.broker.rssiCloseJson.timer = "0") (h : Honoured (book s))
    (hguard : DeviceAgrees s l) (ha : Caused s l b a) (hr : a.request b k = some r) :
    r.Heeded (b.ledger k) := by
  cases ha with
  | enter b connfd => cases k <;> cases hr <;> trivial
  | leave b connfd hl =>
      cases k <;> cases hr
      · simp [Request.Heeded, transferExchange, hclose]
      · rfl
      · rfl
  | openRssi connfd hl =>
      cases k <;> cases hr
      exact heeds_openRssi h hguard hl
  | startCsi connfd hl =>
      cases k <;> simp only [Action.request, reduceCtorEq] at hr
      split at hr
      · cases hr
      · rename_i hfree
        cases hr
        exact heeds_startCsi h hguard hl hfree
  | stopCsi connfd =>
      cases k <;> cases hr
      rfl
  | startConstell connfd hl =>
      cases k <;> simp only [Action.request, reduceCtorEq] at hr
      split at hr
      · cases hr
      · rename_i hfree
        cases hr
        exact heeds_startConstell h hguard hl hfree
  | stopConstell connfd =>
      cases k <;> cases hr
      rfl

theorem honoured_step (hp : s.dma.pAxidma = true) (hopen : s.broker.rssiOpenJson.timer ≠ "0")
    (hclose : s.broker.rssiCloseJson.timer = "0") (h : Honoured (book s))
    (hguard : DeviceAgrees s l) (hstep : Step s l s') : Honoured (book s') := by
  apply eventLoop_induction hp hstep h
  intro b a ha hb
  have hproper : ∀ k r, a.request b k = some r → r.Proper :=
    fun k r hr => ha.proper (fun _ => hopen) hr
  have hheeded : ∀ k r, a.request b k = some r → r.Heeded (b.ledger k) :=
    fun k r hr => request_heeded hclose h hguard ha hr
  refine ⟨hb.kept.act (ha.listed hstep.1), ?_, ?_, ?_⟩
  · exact fun k => driven_book_act (hb.driven k) hb.kept (hproper k)
  · exact fun k => confirmed_book_act (hb.confirmed k) hb.kept (hproper k) (hheeded k)
  · intro k hk
    apply prompt_book_act (hb.prompt k hk) hb.kept (hb.driven k)
    intro r hr
    apply request_prompts hk ha.stopsDma hr
    rintro connfd e rfl hrefused
    have hundelivered := (hheeded k _ hr).undelivered (hb.kept.counted k) hrefused
    rw [ha.start_delivered hr] at hundelivered
    cases hundelivered

theorem acknowledged_of_accepted {v : Service Int} {e : Exchange} (hconfirmed : v.Confirmed)
    (hcount : v.Counted) (hheeds : v.Heeds e) (he : e.target = 1) (haccepted : ¬ v.Refuses e) :
    Acknowledged (v.wake e).commands :=
  hconfirmed.wake_acknowledged hcount (fun hnone => (hheeds hnone).1) he haccepted

theorem honestStart_openRssi {connfd ret : Int} {g : GBrokerPara} (h : Honoured (book s))
    (hopen : s.broker.rssiOpenJson.timer ≠ "0")
    (hheeds : (book s).rssi.Heeds (transferExchange s.broker.rssiOpenJson l.replies.transfer))
    (hcall : openRssiStateExternal connfd l.replies.transfer s.broker = .ok (ret, g)) :
    HonestStart ret (rssiModule s.broker) (rssiModule g) := by
  have hservice := openRssiStateExternal_service hcall
  simp only at hservice
  split at hservice
  · rename_i hrefused
    obtain ⟨rfl, -⟩ := hservice
    have hundelivered := hheeds.undelivered (h.kept.counted .rssi) hrefused
    have hnot : ¬ l.replies.transfer.Delivered := by
      simpa [transferExchange] using hundelivered
    have hcode : l.replies.transfer.code ≠ 0 := by simp [TransferReply.code, hnot]
    have hidle : s.broker.rssiUserCnt = 0 ∧ s.broker.rssiState = 0 := hrefused.1
    have hg := congrArg Prod.snd (openRssiStateExternal_ok hcall)
    simp only [if_pos hidle, if_neg hcode] at hg
    apply honestStart_of_unchanged (by decide)
    rw [hg]
    refine ⟨?_, rfl, rfl⟩
    simp [rssiModule, rssiService, controlled, hnot]
  · rename_i haccepted
    obtain ⟨-, hservice⟩ := hservice
    apply honestStart_of_acknowledged
    have hack := acknowledged_of_accepted (h.confirmed .rssi) (h.kept.counted .rssi) hheeds
      (by simp [transferExchange, hopen]) haccepted
    have hcommands : (rssiModule g).commands = (rssiService g).commands := rfl
    rw [hcommands, hservice]
    exact hack

theorem honestStart_startCsi (connfd : Int) (hp : s.dma.pAxidma = true) (h : Honoured (book s))
    (hheeds : (book s).csi.Heeds (startExchange l.replies.start)) :
    HonestStart (startCsiStateExternal connfd l.replies.start s.dma).1 (csiModule s.dma)
      (csiModule (startCsiStateExternal connfd l.replies.start s.dma).2) := by
  have haccepted : ¬ (csiService s.dma).Refuses (startExchange l.replies.start) := by
    intro hrefused
    cases hheeds.undelivered (h.kept.counted .csi) hrefused
  have hack := acknowledged_of_accepted (h.confirmed .csi) (h.kept.counted .csi) hheeds rfl
    haccepted
  have hservice := startCsiStateExternal_service connfd l.replies.start hp
  simp only at hservice
  rw [if_neg haccepted] at hservice
  apply honestStart_of_acknowledged
  have hcommands : (csiModule (startCsiStateExternal connfd l.replies.start s.dma).2).commands =
      (csiService (startCsiStateExternal connfd l.replies.start s.dma).2).commands := rfl
  rw [hcommands, hservice.2, Service.add_commands]
  exact hack

theorem honestStart_startConstell (connfd : Int) (hp : s.dma.pAxidma = true)
    (h : Honoured (book s))
    (hheeds : (book s).constell.Heeds (startExchange l.replies.start)) :
    HonestStart (startConstellationExternal connfd l.replies.start s.dma).1
      (constellModule s.dma)
      (constellModule (startConstellationExternal connfd l.replies.start s.dma).2) := by
  have haccepted : ¬ (book s).constell.Refuses (startExchange l.replies.start) := by
    intro hrefused
    cases hheeds.undelivered (h.kept.counted .constell) hrefused
  have hack := acknowledged_of_accepted (h.confirmed .constell) (h.kept.counted .constell) hheeds
    rfl haccepted
  have hservice := startConstellationExternal_service connfd l.replies.start hp
  apply honestStart_of_acknowledged
  have hcommands :
      (constellModule (startConstellationExternal connfd l.replies.start s.dma).2).commands =
        (constellService (startConstellationExternal connfd l.replies.start s.dma).2).commands :=
    rfl
  rw [hcommands, hservice, Service.add_commands]
  exact hack

theorem honestStarts_of_deviceAgrees (hp : s.dma.pAxidma = true)
    (hopen : s.broker.rssiOpenJson.timer ≠ "0") (h : Honoured (book s))
    (hguard : DeviceAgrees s l) : HonestStarts s l := by
  unfold HonestStarts
  split
  · rename_i connfd hl
    intro ret g hcall
    exact honestStart_openRssi h hopen (heeds_openRssi h hguard hl) hcall
  · rename_i connfd hl
    intro hfree
    rw [ne_eq, checkConstellWorking_iff] at hfree
    exact honestStart_startCsi connfd hp h (heeds_startCsi h hguard hl hfree)
  · rename_i connfd hl
    intro hfree
    rw [ne_eq, checkCsiWorking_iff] at hfree
    exact honestStart_startConstell connfd hp h (heeds_startConstell h hguard hl hfree)
  · trivial

theorem not_honestStart_left_running {connfd ret : Int} {g : GBrokerPara}
    (h : Honoured (book s)) (hcnt : s.broker.rssiUserCnt = 0) (hstate : s.broker.rssiState ≠ 0)
    (hcall : openRssiStateExternal connfd l.replies.transfer s.broker = .ok (ret, g)) :
    ¬ HonestStart ret (rssiModule s.broker) (rssiModule g) := by
  have hnone : (book s).rssi.users = [] := (h.kept.counted .rssi).cnt_eq_zero_iff.mp hcnt
  have hone : (book s).rssi.state = 1 := (h.driven .rssi).binary.resolve_left hstate
  have hnack : ¬ Acknowledged (book s).rssi.commands := (h.confirmed .rssi).none hnone hone
  have hout := openRssiStateExternal_ok hcall
  rw [if_neg fun hidle => hstate hidle.2] at hout
  obtain ⟨rfl, rfl⟩ := Prod.mk.inj hout
  intro hhonest
  exact hnack (hhonest.acknowledged (.inl rfl))

theorem not_honestStart_refused_rssi {connfd ret : Int} {g : GBrokerPara}
    (hopen : s.broker.rssiOpenJson.timer ≠ "0") (hcnt : s.broker.rssiUserCnt = 0)
    (hstate : s.broker.rssiState = 0) (hdelivered : l.replies.transfer.Delivered)
    (hstat : l.replies.transfer.stat ≠ some "0")
    (hcall : openRssiStateExternal connfd l.replies.transfer s.broker = .ok (ret, g)) :
    ¬ HonestStart ret (rssiModule s.broker) (rssiModule g) := by
  have hcode : l.replies.transfer.code = -1 := by simp [TransferReply.code, hstat]
  have hout := openRssiStateExternal_ok hcall
  rw [if_pos ⟨hcnt, hstate⟩, if_neg (by rw [hcode]; decide)] at hout
  obtain ⟨rfl, rfl⟩ := Prod.mk.inj hout
  intro hhonest
  have hfailed : (rssiModule
      (controlled s.broker.rssiOpenJson l.replies.transfer s.broker)).commands =
        .start false :: (rssiModule s.broker).commands := by
    simp [rssiModule, rssiService, controlled, rssiCommand, hopen, hcode]
  have hsame := (hhonest.unchanged hfailed).2.1
  simp [rssiModule, rssiService, controlled, hdelivered, hopen, hstate] at hsame

theorem not_honestStart_failed_csi (connfd : Int) {r : StartReply} {g : GDmaPara}
    (hp : g.pAxidma = true) (hcnt : g.csiUserCnt = 0) (hstate : g.csiState = 0)
    (hstart : r.start ≠ 0) :
    ¬ HonestStart (startCsiStateExternal connfd r g).1 (csiModule g)
      (csiModule (startCsiStateExternal connfd r g).2) := by
  have hcall : startCsiStateExternal connfd r g = (-1, (startCsi r g).2) := by
    simp [startCsiStateExternal, hcnt, hstate, startCsi_eq, hp, hstart]
  rw [hcall]
  intro hhonest
  have hfailed : (csiModule (startCsi r g).2).commands =
      .start false :: (csiModule g).commands := by
    simp [csiModule, csiService, startCsi_eq, hp, axidmaCommand, hstart]
  have hsame := (hhonest.unchanged hfailed).2.1
  simp [csiModule, csiService, startCsi_eq, hp, hstate] at hsame

theorem not_honestStart_failed_constell (connfd : Int) {r : StartReply} {g : GDmaPara}
    (hp : g.pAxidma = true) (hcnt : g.constellationUserCnt = 0)
    (hstate : g.constellationState = 0) (hstart : r.start ≠ 0) :
    ¬ HonestStart (startConstellationExternal connfd r g).1 (constellModule g)
      (constellModule (startConstellationExternal connfd r g).2) := by
  have hret : (startConstellationExternal connfd r g).1 = 0 := by
    simp [startConstellationExternal, hcnt, hstate]
  intro hhonest
  have hfailed : (constellModule (startConstellationExternal connfd r g).2).commands =
      .start false :: (constellModule g).commands := by
    simp [constellModule, constellService, startConstellationExternal, hcnt, hstate,
      addConstellUserNode_eq, startConstellation_eq, hp, axidmaCommand, hstart]
  exact (hhonest.unchanged hfailed).1 hret

theorem not_honestStarts_of_not_deviceAgrees (hp : s.dma.pAxidma = true)
    (hopen : s.broker.rssiOpenJson.timer ≠ "0") (h : Honoured (book s))
    (hguard : ¬ DeviceAgrees s l) (hstep : Step s l s') : ¬ HonestStarts s l := by
  rcases l with ⟨event, r⟩
  cases event with
  | inquiryRssi connfd =>
      obtain ⟨⟨ret, g⟩, hcall, -⟩ := bind_eq_ok.mp hstep.2
      simp only [DeviceAgrees, Classical.not_imp] at hguard
      obtain ⟨hcnt, hguard⟩ := hguard
      intro hhonest
      rcases Classical.em (s.broker.rssiState = 0) with hstate | hstate
      · simp only [hstate, true_and, Classical.not_imp] at hguard
        exact not_honestStart_refused_rssi hopen hcnt hstate hguard.1 hguard.2 hcall
          (hhonest ret g hcall)
      · exact not_honestStart_left_running h hcnt hstate hcall (hhonest ret g hcall)
  | startCsi connfd =>
      simp only [DeviceAgrees, Classical.not_imp] at hguard
      obtain ⟨hfree, hcnt, hstate, hstart⟩ := hguard
      intro hhonest
      exact not_honestStart_failed_csi connfd hp hcnt hstate hstart (hhonest hfree)
  | startConstellation connfd =>
      simp only [DeviceAgrees, Classical.not_imp] at hguard
      obtain ⟨hfree, hcnt, hstate, hstart⟩ := hguard
      intro hhonest
      exact not_honestStart_failed_constell connfd hp hcnt hstate hstart (hhonest hfree)
  | _ => exact absurd trivial hguard

end Events

/-- Along a run every start call is honest exactly when the device agrees to every
start it is asked for, and RSSI is never asked for while left running. -/
theorem honest_starts_iff {s s' : State} {trs : List (Transition State Label)}
    (hs : Started s) (hopen : s.broker.rssiOpenJson.timer ≠ "0")
    (hclose : s.broker.rssiCloseJson.timer = "0") (h : Run Step s trs s') :
    (∀ tr ∈ trs, HonestStarts tr.before tr.label) ↔
      ∀ tr ∈ trs, DeviceAgrees tr.before tr.label := by
  obtain ⟨hempty, hp, -⟩ := started_book hs
  have hworld : ∀ a, constants a = constants s →
      a.dma.pAxidma = true ∧ a.broker.rssiOpenJson.timer ≠ "0" ∧
        a.broker.rssiCloseJson.timer = "0" := by
    intro a hconst
    have hp' : a.dma.pAxidma = s.dma.pAxidma := congrArg (fun c => c.2.1) hconst
    have hopen' : a.broker.rssiOpenJson = s.broker.rssiOpenJson :=
      congrArg (fun c => c.1.1) hconst
    have hclose' : a.broker.rssiCloseJson = s.broker.rssiCloseJson :=
      congrArg (fun c => c.1.2) hconst
    rw [hp', hopen', hclose']
    exact ⟨hp, hopen, hclose⟩
  have hkeep : ∀ a l b, Honoured (book a) ∧ constants a = constants s → DeviceAgrees a l →
      Step a l b → (Honoured (book b) ∧ constants b = constants s) ∧ HonestStarts a l := by
    rintro a l b ⟨ha, hconst⟩ hguard hstep
    obtain ⟨hpa, hopena, hclosea⟩ := hworld a hconst
    exact ⟨⟨honoured_step hpa hopena hclosea ha hguard hstep,
      (eventLoop_book hpa hstep).2.trans hconst⟩, honestStarts_of_deviceAgrees hpa hopena ha hguard⟩
  have hbreak : ∀ a l b, Honoured (book a) ∧ constants a = constants s → ¬ DeviceAgrees a l →
      Step a l b → ¬ HonestStarts a l := by
    rintro a l b ⟨ha, hconst⟩ hguard hstep
    obtain ⟨hpa, hopena, -⟩ := hworld a hconst
    exact not_honestStarts_of_not_deviceAgrees hpa hopena ha hguard hstep
  have hstart : Honoured (book s) := by
    rw [hempty]
    exact honoured_empty
  exact h.forall_good_iff hkeep hbreak ⟨hstart, rfl⟩

/-- Connection 7 asks for RSSI twice: the device is out of reach, then agrees. -/
theorem honest_starts_second_attempt :
    ∃ trs s, replay survive (startState ⟨"dev", "1"⟩ ⟨"dev", "0"⟩)
        [⟨.acceptNewUser 7, .success⟩,
          ⟨.inquiryRssi 7, { Replies.success with transfer := ⟨-1, 0, none⟩ }⟩,
          ⟨.inquiryRssi 7, .success⟩] = some (trs, s) ∧
      ((∀ tr ∈ trs, HonestStarts tr.before tr.label) ↔
        ∀ tr ∈ trs, DeviceAgrees tr.before tr.label) := by
  obtain ⟨trs, s, hs⟩ : ∃ trs s, replay survive (startState ⟨"dev", "1"⟩ ⟨"dev", "0"⟩)
      [⟨.acceptNewUser 7, .success⟩,
        ⟨.inquiryRssi 7, { Replies.success with transfer := ⟨-1, 0, none⟩ }⟩,
        ⟨.inquiryRssi 7, .success⟩] = some (trs, s) := ⟨_, _, rfl⟩
  exact ⟨trs, s, hs, honest_starts_iff (startState_started _ _) (by decide) rfl
    (run_of_replay step_of_survive hs)⟩

/-- CSI fails to start for connection 7. Its second request succeeds without the
device, whose only command is the failed one. -/
theorem csi_user_of_failed_device :
    ∃ trs s, Run Step (startState ⟨"dev", "1"⟩ ⟨"dev", "0"⟩) trs s ∧
      trs.map (fun tr => tr.label) =
        [⟨.acceptNewUser 7, .success⟩, ⟨.startCsi 7, .failedStart⟩,
          ⟨.startCsi 7, .failedStart⟩] ∧
      s.dma.csiUserNodeHead.map UserNode.connfd = [7] ∧
      s.dma.csiCommands = [.start 0 (-1)] ∧
      ∃ tr ∈ trs, ¬ HonestStarts tr.before tr.label := by
  have haccept := step_of_survive (startState ⟨"dev", "1"⟩ ⟨"dev", "0"⟩)
    ⟨.acceptNewUser 7, .success⟩ _ rfl
  have hfirst := step_of_survive _ ⟨.startCsi 7, .failedStart⟩ _
    (rfl : survive (handleAcceptNewUser 7 (startState ⟨"dev", "1"⟩ ⟨"dev", "0"⟩)) _ = _)
  have hsecond := step_of_survive _ ⟨.startCsi 7, .failedStart⟩ _
    (rfl : survive (handleStartCsi 7 .failedStart
      (handleAcceptNewUser 7 (startState ⟨"dev", "1"⟩ ⟨"dev", "0"⟩))) _ = _)
  refine ⟨_, _, .cons haccept (.cons hfirst (.cons hsecond (.nil _))), rfl, rfl, rfl, ?_⟩
  refine ⟨_, List.mem_cons_of_mem _ (List.mem_cons_self ..), ?_⟩
  intro hhonest
  exact not_honestStart_failed_csi 7 rfl rfl rfl (by decide) (hhonest (by decide))

end GwWeb.DeviceStart
