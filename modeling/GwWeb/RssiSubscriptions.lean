import GwWeb.UserAccounting

/-!
The list of RSSI users against the sessions that asked for RSSI. A request by a
session that has RSSI already lists it a second time; without such requests list
and sessions agree.
-/

namespace GwWeb.RssiSubscriptions

open CountedService
open MirroredRoster
open Subscription
open TransitionRuns
open GwWeb.WebCommon
open GwWeb.Server
open GwWeb.MosquittoBroker
open GwWeb.EventProcess
open GwWeb.UserBook
open GwWeb.BookRefinement
open GwWeb.BookRuns
open GwWeb.UserAccounting

/-- One event keeps the RSSI list in step with the sessions: the list holds those
that asked, one sample goes once to each of them, and when the last one is gone the
counter is 0 and the close command was the last thing sent. -/
structure SubscriptionsMirror (s : State) (l : Label) (s' : State) : Prop where
  lists : ListsFlagged s'.broker.rssiUserNodeHead RecordAction.enableRssi s'.server
  once : (sendRssiInEventLoop s'.server s'.broker).Nodup
  sends : ∀ n, n ∈ sendRssiInEventLoop s'.server s'.broker ↔
    n ∈ s'.server.userSessionNodeHead ∧ n.recordAction.enableRssi = 1
  closes : s.broker.rssiUserNodeHead ≠ [] → s'.broker.rssiUserNodeHead = [] →
    s'.broker.rssiUserCnt = 0 ∧
      s'.broker.transfers = (s.broker.rssiCloseJson, l.replies.transfer) :: s.broker.transfers

/-- RSSI is not asked for by a connection whose session has it. -/
def NotSubscribed (s : State) (l : Label) : Prop :=
  ∀ connfd, l.event = .inquiryRssi connfd →
    ∀ n, findUserNodeByConnfd connfd s.server = some n → n.recordAction.enableRssi ≠ 1

section Sessions

variable {s : State}

theorem isOn_rssi (s : State) (connfd : Int) :
    isOn connfd ((book s).ledger .rssi).entries =
      (findUserNodeByConnfd connfd s.server).any fun n => n.recordAction.enableRssi = 1 := by
  simp only [Book.ledger, isOn_entries, book, List.find?_map, Option.any_map]
  rfl

theorem find_of_enableRssi (hfirst : FirstOnly ((book s).ledger .rssi).entries)
    {n : UserSessionNode} (hn : n ∈ s.server.userSessionNodeHead)
    (hflag : n.recordAction.enableRssi = 1) :
    findUserNodeByConnfd n.connfd s.server = some n := by
  simp only [Book.ledger, entries, book, List.map_map] at hfirst
  exact find?_of_firstOnly UserSessionNode.connfd
    (fun n => decide (n.recordAction.enableRssi = 1)) hfirst hn (by simpa using hflag)

theorem listed_iff (h : Mirrors (roster ((book s).ledger .rssi))) (connfd : Int) :
    connfd ∈ s.broker.rssiUserNodeHead.map UserNode.connfd ↔
      ∃ n, findUserNodeByConnfd connfd s.server = some n ∧ n.recordAction.enableRssi = 1 := by
  have hmem : connfd ∈ s.broker.rssiUserNodeHead.map UserNode.connfd ↔
      (connfd, true) ∈ ((book s).ledger .rssi).entries := h.mem_iff connfd
  have hon : isOn connfd ((book s).ledger .rssi).entries = true ↔
      (connfd, true) ∈ ((book s).ledger .rssi).entries := isOn_iff h.first connfd
  rw [hmem, ← hon, isOn_rssi, Option.any_eq_true]
  simp

theorem sample_connfds (h : Mirrors (roster ((book s).ledger .rssi))) :
    (sendRssiInEventLoop s.server s.broker).map UserSessionNode.connfd =
      s.broker.rssiUserNodeHead.map UserNode.connfd := by
  have hfound : ∀ u ∈ s.broker.rssiUserNodeHead,
      (findUserNodeByConnfd u.connfd s.server).map UserSessionNode.connfd = some u.connfd := by
    intro u hu
    obtain ⟨n, hn, -⟩ := (listed_iff h u.connfd).mp (List.mem_map.mpr ⟨u, hu, rfl⟩)
    have hconnfd : n.connfd = u.connfd := by simpa using List.find?_some hn
    rw [hn, Option.map_some, hconnfd]
  rw [sendRssiInEventLoop, List.map_filterMap, List.filterMap_congr hfound]
  exact congrFun List.filterMap_eq_map _

theorem mem_sample_iff (h : Mirrors (roster ((book s).ledger .rssi))) (n : UserSessionNode) :
    n ∈ sendRssiInEventLoop s.server s.broker ↔
      n ∈ s.server.userSessionNodeHead ∧ n.recordAction.enableRssi = 1 := by
  simp only [sendRssiInEventLoop, List.mem_filterMap]
  constructor
  · rintro ⟨u, hu, hfind⟩
    obtain ⟨m, hm, hflag⟩ := (listed_iff h u.connfd).mp (List.mem_map.mpr ⟨u, hu, rfl⟩)
    obtain rfl : m = n := Option.some.inj (hm.symm.trans hfind)
    exact ⟨List.mem_of_find?_eq_some hfind, hflag⟩
  · rintro ⟨hn, hflag⟩
    have hfind := find_of_enableRssi h.first hn hflag
    obtain ⟨u, hu, hconnfd⟩ := List.mem_map.mp ((listed_iff h n.connfd).mpr ⟨n, hfind, hflag⟩)
    exact ⟨u, hu, by rw [hconnfd]; exact hfind⟩

end Sessions

section Close

theorem closeRssiStateExternal_transfers {connfd : Int} {reply : TransferReply}
    {g g' : GBrokerPara} (hcount : (rssiService g).Counted) (hstate : g.rssiState = 1)
    (hnone : g'.rssiUserNodeHead = []) (h : closeRssiStateExternal connfd reply g = .ok g') :
    g'.transfers = (g.rssiCloseJson, reply) :: g.transfers := by
  obtain ⟨g₁, hunlink, rfl, -⟩ := closeRssiStateExternal_eq_ok_iff.mp h
  have hcount₁ : (rssiService g₁).Counted := by
    rw [(unlinkRssiUserNode_service hunlink).1]
    exact hcount.unlist connfd
  have hnone₁ : g₁.rssiUserNodeHead = [] := by
    unfold closed at hnone
    split at hnone <;> exact hnone
  have hcnt : g₁.rssiUserCnt = 0 := by
    apply hcount₁.cnt_eq_zero_iff.mpr
    simp [rssiService, hnone₁]
  obtain ⟨freed, confirmDelete, rfl⟩ := unlinkRssiUserNode_ok hunlink
  simp only at hcnt
  simp only [closed, hcnt, hstate, and_self, if_true]
  rfl

theorem undoBroker_transfers {connfd : Int} {action : RecordAction} {r : Replies}
    {g g' : GBrokerPara} (hcount : (rssiService g).Counted) (hstate : g.rssiState = 1)
    (hsome : g.rssiUserNodeHead ≠ []) (hnone : g'.rssiUserNodeHead = [])
    (h : undoBroker connfd action r g = .ok g') :
    g'.transfers = (g.rssiCloseJson, r.transfer) :: g.transfers := by
  obtain ⟨save, -, ⟨-, rfl⟩ | ⟨-, hclose⟩⟩ := undoBroker_ok h
  · exact absurd hnone hsome
  · exact closeRssiStateExternal_transfers (g := { g with save }) hcount hstate hnone hclose

end Close

/-- The invariant: lists and flags mirror each other for RSSI. -/
structure Subscribed (b : Book) : Prop where
  kept : b.Kept
  mirrors : Mirrors (roster (b.ledger .rssi))
  driven : b.rssi.Driven

section Events

variable {s s' : State} {l : Label}

theorem not_listed_of_notSubscribed (h : Subscribed (book s)) (hguard : NotSubscribed s l)
    {connfd : Int} (hl : l.event = .inquiryRssi connfd) : connfd ∉ (book s).rssi.users := by
  intro hlisted
  obtain ⟨n, hn, hflag⟩ := (listed_iff h.mirrors connfd).mp hlisted
  exact hguard connfd hl n hn hflag

theorem subscribed_step (hp : s.dma.pAxidma = true) (hopen : s.broker.rssiOpenJson.timer ≠ "0")
    (h : Subscribed (book s)) (hguard : NotSubscribed s l) (hstep : Step s l s') :
    Subscribed (book s') := by
  apply eventLoop_induction hp hstep h
  intro b a ha hb
  have hlisted := ha.listed hstep.1
  refine ⟨hb.kept.act hlisted, ?_, ?_⟩
  · rw [ledger_act hb.kept.binary]
    cases hr : a.request b .rssi with
    | none => exact hb.mirrors
    | some r =>
        apply mirrors_act hb.mirrors (request_listed hlisted hr)
        rintro c e rfl
        cases ha with
        | openRssi connfd hl =>
            cases hr
            exact not_listed_of_notSubscribed h hguard hl
        | _ => cases hr
  · exact driven_book_act (k := .rssi) hb.driven hb.kept fun r hr =>
      ha.proper (fun _ => hopen) hr

theorem rssi_users_act {b : Book} {a : Action}
    (hstay : ∀ connfd e₁ e₂ e₃, a ≠ .leave connfd e₁ e₂ e₃)
    (hsome : b.rssi.users ≠ []) : (b.act a).rssi.users ≠ [] := by
  cases a with
  | enter connfd => exact hsome
  | leave connfd e₁ e₂ e₃ => exact absurd rfl (hstay connfd e₁ e₂ e₃)
  | openRssi connfd e =>
      simp only [Book.act, Book.openRssi]
      split <;> simp [hsome]
  | startCsi connfd e =>
      simp only [Book.act, Book.startCsi]
      split
      · exact hsome
      · split <;> exact hsome
  | stopCsi connfd e => exact hsome
  | startConstell connfd e =>
      simp only [Book.act, Book.startConstell]
      split <;> exact hsome
  | stopConstell connfd e => exact hsome

theorem delUser_transfers {connfd : Int} {r : Replies}
    (hcount : (rssiService s.broker).Counted) (hdriven : (rssiService s.broker).Driven)
    (hin : connfd ∈ sessionConnfds s.server) (hsome : s.broker.rssiUserNodeHead ≠ [])
    (hnone : s'.broker.rssiUserNodeHead = []) (hdel : delUser connfd r s = .ok s') :
    s'.broker.transfers = (s.broker.rssiCloseJson, r.transfer) :: s.broker.transfers := by
  obtain ⟨n, -, -, -, hbroker, -⟩ := delUser_ok hin hdel
  have hstate : s.broker.rssiState = 1 := by
    apply hdriven.running
    simpa [rssiService] using hsome
  exact undoBroker_transfers hcount hstate hsome hnone hbroker

theorem close_sent (hp : s.dma.pAxidma = true) (h : Subscribed (book s)) (hstep : Step s l s')
    (hsome : s.broker.rssiUserNodeHead ≠ []) (hnone : s'.broker.rssiUserNodeHead = []) :
    s'.broker.transfers = (s.broker.rssiCloseJson, l.replies.transfer) :: s.broker.transfers := by
  have husers : (book s).rssi.users ≠ [] := by simpa [book, rssiService] using hsome
  have hstay : (∀ connfd, l.event ≠ .delDisconnectUser connfd) → l.event ≠ .openwrtConnected →
      (book s').rssi.users ≠ [] := by
    intro hdel hopenwrt
    apply eventLoop_induction (P := fun b => b.rssi.users ≠ []) hp hstep husers
    intro b a ha hb
    refine rssi_users_act ?_ hb
    rintro connfd e₁ e₂ e₃ rfl
    cases ha with
    | leave b connfd hl => exact hl.elim (hdel connfd) hopenwrt
  have hgone : ¬ (book s').rssi.users ≠ [] := by
    simp [book, rssiService, hnone]
  rcases l with ⟨event, r⟩
  cases event with
  | delDisconnectUser connfd =>
      exact delUser_transfers (h.kept.counted .rssi) h.driven (hstep.1 connfd rfl) hsome hnone
        hstep.2
  | openwrtConnected =>
      have hloop : handleOpenwrtConnected r s = .ok s' := hstep.2
      simp only [handleOpenwrtConnected] at hloop
      split at hloop
      · cases Except.ok.inj hloop
        exact absurd hnone hsome
      · obtain ⟨s₂, hdel, hloop⟩ := bind_eq_ok.mp hloop
        have hbroker : s'.broker.rssiUserNodeHead = s₂.broker.rssiUserNodeHead ∧
            s'.broker.transfers = s₂.broker.transfers := by
          rw [← Except.ok.inj hloop]
          unfold enableBrokerCallback
          split <;> exact ⟨rfl, rfl⟩
        rw [hbroker.1] at hnone
        rw [hbroker.2]
        split at hdel
        · set t : State := { s with server := addNewUserNodeToList s.server.openwrtConnfd s.server }
          refine delUser_transfers (s := t) (h.kept.counted .rssi) h.driven ?_ hsome hnone hdel
          simp [t, sessionConnfds, addNewUserNodeToList]
        · cases Except.ok.inj hdel
          exact absurd hnone hsome
  | _ => exact absurd (hstay (by simp) (by simp)) hgone

theorem subscriptionsMirror_of_subscribed (hp : s.dma.pAxidma = true)
    (h : Subscribed (book s)) (h' : Subscribed (book s')) (hstep : Step s l s') :
    SubscriptionsMirror s l s' where
  lists := listsFlagged_of_mirrors h'.mirrors
  once := by
    apply List.Nodup.of_map UserSessionNode.connfd
    rw [sample_connfds h'.mirrors]
    exact h'.mirrors.nodup
  sends := mem_sample_iff h'.mirrors
  closes := by
    intro hsome hnone
    refine ⟨?_, close_sent hp h hstep hsome hnone⟩
    apply (h'.kept.counted .rssi).cnt_eq_zero_iff.mpr
    simp [Book.service, book, rssiService, hnone]

theorem not_subscriptionsMirror_of_listed (h : Subscribed (book s))
    (hguard : ¬ NotSubscribed s l) (hstep : Step s l s') : ¬ SubscriptionsMirror s l s' := by
  simp only [NotSubscribed, not_forall, not_not] at hguard
  obtain ⟨connfd, hl, n, hn, hflag⟩ := hguard
  rcases l with ⟨event, r⟩
  subst hl
  have hlisted : connfd ∈ (book s).rssi.users := (listed_iff h.mirrors connfd).mpr ⟨n, hn, hflag⟩
  have hidle : ¬ (book s).rssi.Idle := by
    intro hidle
    have hnone := (h.kept.counted .rssi).cnt_eq_zero_iff.mp hidle.1
    rw [Book.service] at hnone
    rw [hnone] at hlisted
    cases hlisted
  have husers : (book s').rssi.users = (book s).rssi.users ++ [connfd] := by
    rw [(handleInquiryRssi_book hstep.2).1]
    simp [Book.act, Book.openRssi, Service.Refuses, hidle]
  intro hmirror
  have hnodup : (book s').rssi.users.Nodup := hmirror.lists.1
  rw [husers] at hnodup
  exact (List.nodup_append.mp hnodup).2.2 connfd hlisted connfd (by simp) rfl

end Events

/-- Along a run every event meets the correspondence exactly when no connection
that has RSSI asks for it. -/
theorem subscriptions_mirror_iff {s s' : State} {trs : List (Transition State Label)}
    (hs : Started s) (hopen : s.broker.rssiOpenJson.timer ≠ "0") (h : Run Step s trs s') :
    (∀ tr ∈ trs, SubscriptionsMirror tr.before tr.label tr.after) ↔
      ∀ tr ∈ trs, NotSubscribed tr.before tr.label := by
  obtain ⟨hempty, hp, -⟩ := started_book hs
  have hkeep : ∀ a l b, Subscribed (book a) ∧ constants a = constants s → NotSubscribed a l →
      Step a l b →
        (Subscribed (book b) ∧ constants b = constants s) ∧ SubscriptionsMirror a l b := by
    rintro a l b ⟨ha, hconst⟩ hguard hstep
    have hpa : a.dma.pAxidma = true := (congrArg (fun c => c.2.1) hconst).trans hp
    have hopena : a.broker.rssiOpenJson = s.broker.rssiOpenJson :=
      congrArg (fun c => c.1.1) hconst
    have hb := subscribed_step hpa (by rw [hopena]; exact hopen) ha hguard hstep
    exact ⟨⟨hb, (eventLoop_book hpa hstep).2.trans hconst⟩,
      subscriptionsMirror_of_subscribed hpa ha hb hstep⟩
  have hbreak : ∀ a l b, Subscribed (book a) ∧ constants a = constants s → ¬ NotSubscribed a l →
      Step a l b → ¬ SubscriptionsMirror a l b := by
    rintro a l b ⟨ha, -⟩ hguard hstep
    exact not_subscriptionsMirror_of_listed ha hguard hstep
  have hstart : Subscribed (book s) := by
    rw [hempty]
    exact ⟨kept_empty, mirrors_empty, Service.driven_idle⟩
  exact h.forall_good_iff hkeep hbreak ⟨hstart, rfl⟩

/-- Connections 7 and 8 ask for RSSI, and 7 goes. -/
theorem subscriptions_mirror_two_users :
    ∃ trs s, replay survive (startState ⟨"dev", "1"⟩ ⟨"dev", "0"⟩)
        [⟨.acceptNewUser 7, .success⟩, ⟨.acceptNewUser 8, .success⟩, ⟨.inquiryRssi 7, .success⟩,
          ⟨.inquiryRssi 8, .success⟩, ⟨.delDisconnectUser 7, .success⟩] = some (trs, s) ∧
      ((∀ tr ∈ trs, SubscriptionsMirror tr.before tr.label tr.after) ↔
        ∀ tr ∈ trs, NotSubscribed tr.before tr.label) := by
  obtain ⟨trs, s, hs⟩ : ∃ trs s, replay survive (startState ⟨"dev", "1"⟩ ⟨"dev", "0"⟩)
      [⟨.acceptNewUser 7, .success⟩, ⟨.acceptNewUser 8, .success⟩, ⟨.inquiryRssi 7, .success⟩,
        ⟨.inquiryRssi 8, .success⟩, ⟨.delDisconnectUser 7, .success⟩] = some (trs, s) :=
    ⟨_, _, rfl⟩
  exact ⟨trs, s, hs, subscriptions_mirror_iff (startState_started _ _) (by decide)
    (run_of_replay step_of_survive hs)⟩

/-- Connection 7 asks twice and is listed twice. -/
theorem second_inquiry_listed_twice :
    ∃ trs s, Run Step (startState ⟨"dev", "1"⟩ ⟨"dev", "0"⟩) trs s ∧
      trs.map (fun tr => tr.label) =
        [⟨.acceptNewUser 7, .success⟩, ⟨.inquiryRssi 7, .success⟩, ⟨.inquiryRssi 7, .success⟩] ∧
      s.broker.rssiUserNodeHead.map UserNode.connfd = [7, 7] ∧
      ¬ ListsFlagged s.broker.rssiUserNodeHead RecordAction.enableRssi s.server := by
  obtain ⟨trs, s, hs, hlabels, husers⟩ :
      ∃ trs s, replay survive (startState ⟨"dev", "1"⟩ ⟨"dev", "0"⟩)
          [⟨.acceptNewUser 7, .success⟩, ⟨.inquiryRssi 7, .success⟩, ⟨.inquiryRssi 7, .success⟩] =
            some (trs, s) ∧
        trs.map (fun tr => tr.label) =
          [⟨.acceptNewUser 7, .success⟩, ⟨.inquiryRssi 7, .success⟩, ⟨.inquiryRssi 7, .success⟩] ∧
        s.broker.rssiUserNodeHead.map UserNode.connfd = [7, 7] := ⟨_, _, rfl, rfl, rfl⟩
  refine ⟨trs, s, run_of_replay step_of_survive hs, hlabels, husers, ?_⟩
  rintro ⟨hnodup, -⟩
  rw [husers] at hnodup
  exact absurd hnodup (by decide)

end GwWeb.RssiSubscriptions
