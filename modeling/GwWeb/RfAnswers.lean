import Mathlib.Logic.Function.Iterate
import GwWeb.RoutedReplies
import GwWeb.SessionRoster

/-!
The RF information a page asks for: `MSG_INQUIRY_RF_INFO` hands the node id of the
session to a worker thread, and `MST_RF_INFO_READY` sends the response to the
session that has this id by then.
-/

namespace GwWeb.RfAnswers

open RoutedReplies
open TransitionRuns
open GwWeb.WebCommon
open GwWeb.Server
open GwWeb.EventProcess
open GwWeb.SessionRoster

/-- The requests at the worker threads, the `MST_RF_INFO_READY` messages on their
way back, and the responses, each with the session it was sent to. -/
structure State where
  loop : EventProcess.State
  workers : List (Request Int)
  ready : List (Request Int)
  responses : List (Nat × Request Int)

/-- A message of the loop, or a step of an inquiry. -/
inductive Event where
  | loop (l : EventProcess.Label)
  | inquiryRfInfo (asker : Nat)
  | inquiryRfStateWrapper (k : Nat)
  | rfInfoReady

/-- `MSG_INQUIRY_RF_INFO`: a worker gets the id of the asker. -/
def handleInquiryRfInfo (asker : Nat) (s : State) : Except Fault State := do
  let n ← pointedTo asker s.loop.server
  return { s with workers := s.workers ++ [⟨findUserNodeId n.connfd s.loop.server, asker⟩] }

/-- The worker thread with the `k`-th request is done with it. -/
def inquiryRfStateWrapper (k : Nat) (s : State) : State :=
  match s.workers[k]? with
  | none => s
  | some q => { s with workers := s.workers.eraseIdx k, ready := s.ready ++ [q] }

/-- `MSG_RF_INFO_READY`: the answer goes to the session with its id. -/
def handleRfInfoReady (s : State) : State :=
  match s.ready with
  | [] => s
  | q :: ready =>
      match findUserNodeByUserId q.id s.loop.server with
      | none => { s with ready }
      | some n => { s with ready, responses := s.responses ++ [(n.addr, q)] }

def execute (s : State) : Event → Except Fault State
  | .loop l => do
      let loop ← eventLoop s.loop l
      return { s with loop }
  | .inquiryRfInfo asker => handleInquiryRfInfo asker s
  | .inquiryRfStateWrapper k => .ok (inquiryRfStateWrapper k s)
  | .rfInfoReady => .ok (handleRfInfoReady s)

def Possible (s : State) : Event → Prop
  | .loop l => InSession s.loop l.event
  | _ => True

abbrev Step : State → Event → State → Prop := Executes Possible execute

instance (s : State) (e : Event) : Decidable (Possible s e) :=
  match e with
  | .loop l => inferInstanceAs (Decidable (InSession s.loop l.event))
  | .inquiryRfInfo _ => isTrue trivial
  | .inquiryRfStateWrapper _ => isTrue trivial
  | .rfInfoReady => isTrue trivial

structure Started (s : State) : Prop where
  loop : EventProcess.Started s.loop
  workers : s.workers = []
  ready : s.ready = []
  responses : s.responses = []

def client (m : Member) : Client Int := ⟨m.addr, m.nodeId⟩

/-- The sessions, with the answers that are on their way. -/
def deskOf (r : Roster) (outstanding : List (Request Int)) : Desk Int :=
  ⟨r.members.map client, outstanding, r.allocated⟩

def desk (s : State) : Desk Int := deskOf (roster s.loop.server) (s.workers ++ s.ready)

/-- The node ids are pairwise distinct, and none that an answer is outstanding for is with
another session than the one that asked. -/
structure IdsApart (s : State) : Prop where
  distinct : (s.loop.server.userSessionNodeHead.map UserSessionNode.nodeId).Nodup
  exclusive : ∀ q ∈ s.workers ++ s.ready, ∀ n ∈ s.loop.server.userSessionNodeHead,
    n.nodeId = q.id → n.addr = q.asker

/-- The response goes to the session that asked if it is still connected, and to
nobody otherwise. -/
def AnsweredRight (s : State) (e : Event) (s' : State) : Prop :=
  ∀ q ready, e = .rfInfoReady → s.ready = q :: ready →
    s'.responses = s.responses ++ if q.asker ∈ connected s.loop.server then [(q.asker, q)] else []

/-- The next id is with no session that stays, and no answer is outstanding for it. -/
def FreshId (s : State) (staying : List Member) : Prop :=
  s.loop.server.userNodeIdInit ∉ staying.map Member.nodeId ∧
    s.loop.server.userNodeIdInit ∉ (s.workers ++ s.ready).map Request.id

/-- The sessions that one which enters, and does not go at once, is beside. -/
def beside (s : State) (l : EventProcess.Label) : Option (List Member) :=
  let openwrtConnfd := s.loop.server.openwrtConnfd
  match l.event with
  | .acceptNewUser _ => some (members s.loop.server)
  | .openwrtConnected =>
      if s.loop.server.openwrtLink = 0 then none
      else if l.replies.eventfdWrite = -1 then
        if openwrtConnfd ∈ sessionConnfds s.loop.server then
          some ((members s.loop.server).eraseP fun m => m.connfd = openwrtConnfd)
        else none
      else some (members s.loop.server)
  | _ => none

/-- A session enters under a fresh id, and asks while no other session is found
for its connection. -/
def KeepsApart (s : State) : Event → Prop
  | .loop l => ∀ staying ∈ beside s l, FreshId s staying
  | .inquiryRfInfo asker =>
      ∀ n ∈ s.loop.server.userSessionNodeHead, n.addr = asker →
        ∀ m ∈ findUserNodeByConnfd n.connfd s.loop.server, m.addr = asker
  | .inquiryRfStateWrapper _ => True
  | .rfInfoReady => True

instance (s : State) (staying : List Member) : Decidable (FreshId s staying) :=
  inferInstanceAs (Decidable (_ ∧ _))

instance (s : State) (e : Event) : Decidable (KeepsApart s e) :=
  match e with
  | .loop l => inferInstanceAs (Decidable (∀ staying ∈ beside s l, FreshId s staying))
  | .inquiryRfInfo asker =>
      inferInstanceAs (Decidable (∀ n ∈ s.loop.server.userSessionNodeHead, n.addr = asker →
        ∀ m ∈ findUserNodeByConnfd n.connfd s.loop.server, m.addr = asker))
  | .inquiryRfStateWrapper _ => isTrue trivial
  | .rfInfoReady => isTrue trivial

section Desk

variable {s s' : State} {r : Roster} {outstanding : List (Request Int)}

theorem serials_desk (s : State) : serials (desk s).clients = connected s.loop.server := by
  simp [desk, deskOf, serials, connected, roster, members, client, member]

theorem ids_deskOf (r : Roster) (outstanding : List (Request Int)) :
    (deskOf r outstanding).clients.map Client.id = r.members.map Member.nodeId := by
  simp [deskOf, client]

theorem mem_desk {n : UserSessionNode} (hn : n ∈ s.loop.server.userSessionNodeHead) :
    (⟨n.addr, n.nodeId⟩ : Client Int) ∈ (desk s).clients :=
  List.mem_map.mpr ⟨member n, List.mem_map.mpr ⟨n, hn, rfl⟩, rfl⟩

theorem idsApart_iff : IdsApart s ↔ Distinct (desk s) ∧ Exclusive (desk s) := by
  have hids : (desk s).clients.map Client.id =
      s.loop.server.userSessionNodeHead.map UserSessionNode.nodeId := by
    simp [desk, deskOf, roster, members, client, member]
  constructor
  · rintro ⟨hdistinct, hexclusive⟩
    refine ⟨by rw [Distinct, hids]; exact hdistinct, ?_⟩
    intro q hq c hc hid
    obtain ⟨m, hm, rfl⟩ := List.mem_map.mp hc
    obtain ⟨n, hn, rfl⟩ := List.mem_map.mp hm
    exact hexclusive q hq n hn hid
  · rintro ⟨hdistinct, hexclusive⟩
    refine ⟨hids ▸ hdistinct, fun q hq n hn hid => ?_⟩
    exact hexclusive q hq _ (mem_desk hn) hid

theorem recipient_desk (id : Int) (s : State) :
    recipient id (desk s).clients =
      (findUserNodeByUserId id s.loop.server).map UserSessionNode.addr := by
  simp [recipient, desk, deskOf, roster, members, findUserNodeByUserId, Function.comp_def, client,
    member]

theorem deskOf_enter (connfd : Int) (r : Roster) (outstanding : List (Request Int)) :
    deskOf (r.enter connfd) outstanding = (deskOf r outstanding).enter r.nextId := by
  simp [deskOf, Roster.enter, Desk.enter, client]

/-- The sessions and the requests are numbered, and every answer has its way. -/
structure Inv (s : State) : Prop where
  numbered : (roster s.loop.server).Numbered
  routed : Routed (desk s)

/-- A condition that decides whether the answers keep their ways. -/
structure Decides (guard : Prop) (d : Desk Int) : Prop where
  routed : guard → Routed d
  apart : Distinct d → Exclusive d → guard

theorem decides_of_routed {guard : Prop} {d : Desk Int} (hguard : guard) (h : Routed d) :
    Decides guard d := ⟨fun _ => h, fun _ _ => hguard⟩

theorem Decides.reorder {guard : Prop} {clients : List (Client Int)} {issued : Nat}
    {outstanding outstanding' : List (Request Int)}
    (h : Decides guard ⟨clients, outstanding', issued⟩)
    (hsame : ∀ q, q ∈ outstanding ↔ q ∈ outstanding') :
    Decides guard ⟨clients, outstanding, issued⟩ where
  routed := fun hguard =>
    (h.routed hguard).mono (List.Sublist.refl _) (fun q hq => (hsame q).mp hq) (Nat.le_refl _)
  apart := fun hdistinct hexclusive =>
    h.apart hdistinct fun q hq => hexclusive q ((hsame q).mpr hq)

theorem decides_enter (h : Routed (deskOf r (s.workers ++ s.ready)))
    (hnext : r.nextId = s.loop.server.userNodeIdInit) (connfd : Int) :
    Decides (FreshId s r.members) (deskOf (r.enter connfd) (s.workers ++ s.ready)) := by
  have hfresh : FreshId s r.members ↔ Fresh r.nextId (deskOf r (s.workers ++ s.ready)) := by
    rw [Fresh, ids_deskOf, hnext]
    rfl
  rw [hfresh, deskOf_enter]
  exact ⟨h.enter, h.fresh_of_enter⟩

theorem Routed.leave (h : Routed (deskOf r outstanding)) (connfd : Int) :
    Routed (deskOf (r.leave connfd) outstanding) :=
  h.mono (List.eraseP_sublist.map client) (List.Subset.refl _) (Nat.le_refl _)

theorem decides_rosterAfter (h : Inv s) (l : Label) :
    Decides (KeepsApart s (.loop l)) (deskOf (rosterAfter s.loop l) (s.workers ++ s.ready)) := by
  rcases l with ⟨event, replies⟩
  have hrouted : Routed (deskOf (roster s.loop.server) (s.workers ++ s.ready)) := h.routed
  have henter := decides_enter hrouted rfl
  have hnobody : ∀ {r : Roster}, beside s ⟨event, replies⟩ = none →
      Routed (deskOf r (s.workers ++ s.ready)) →
      Decides (KeepsApart s (.loop ⟨event, replies⟩)) (deskOf r (s.workers ++ s.ready)) :=
    fun hnone => decides_of_routed (by simp [KeepsApart, hnone])
  have hbeside : ∀ {r : Roster} {staying : List Member},
      beside s ⟨event, replies⟩ = some staying →
      Decides (FreshId s staying) (deskOf r (s.workers ++ s.ready)) →
      Decides (KeepsApart s (.loop ⟨event, replies⟩)) (deskOf r (s.workers ++ s.ready)) := by
    intro r staying hsome hdecides
    simpa [KeepsApart, hsome] using hdecides
  cases event with
  | acceptNewUser connfd => exact hbeside rfl (henter connfd)
  | delDisconnectUser connfd => exact hnobody rfl (Routed.leave hrouted connfd)
  | openwrtConnected =>
      rcases eq_or_ne s.loop.server.openwrtLink 0 with hlink | hlink
      · simp only [rosterAfter, hlink, if_true]
        exact hnobody (by simp [beside, hlink]) hrouted
      · rcases eq_or_ne replies.eventfdWrite (-1) with hwrite | hwrite
        · simp only [rosterAfter, hlink, hwrite, if_true, if_false, Roster.leave_enter,
            sessionConnfds_roster]
          split
          · rename_i hin
            have hstaying : beside s ⟨.openwrtConnected, replies⟩ =
                some ((roster s.loop.server).leave s.loop.server.openwrtConnfd).members := by
              simp only [beside, hlink, hwrite, hin, if_true, if_false]
              rfl
            exact hbeside hstaying
              (decides_enter (Routed.leave hrouted s.loop.server.openwrtConnfd) rfl _)
          · rename_i hin
            refine hnobody (by simp [beside, hlink, hwrite, hin]) ?_
            exact hrouted.mono (List.Sublist.refl _) (List.Subset.refl _) (Nat.le_succ _)
        · have hstaying : beside s ⟨.openwrtConnected, replies⟩ =
              some (roster s.loop.server).members := by
            simp only [beside, hlink, hwrite, if_false]
            rfl
          simp only [rosterAfter, hlink, hwrite, if_false]
          exact hbeside hstaying (henter s.loop.server.openwrtConnfd)
  | _ => exact hnobody rfl hrouted

theorem decides_inquiry (h : Inv s) {asker : Nat} {n : UserSessionNode}
    (hn : pointedTo asker s.loop.server = .ok n) :
    Decides (KeepsApart s (.inquiryRfInfo asker))
      ((desk s).ask ⟨findUserNodeId n.connfd s.loop.server, asker⟩) := by
  obtain ⟨hlisted, haddr⟩ := mem_of_pointedTo hn
  have hsome : (findUserNodeByConnfd n.connfd s.loop.server).isSome := by
    simp only [findUserNodeByConnfd, List.find?_isSome, decide_eq_true_eq]
    exact ⟨n, hlisted, rfl⟩
  obtain ⟨m, hfound⟩ := Option.isSome_iff_exists.mp hsome
  have hclient := mem_desk (List.mem_of_find?_eq_some hfound)
  simp only [findUserNodeId, hfound]
  constructor
  · intro hguard
    have hasker : m.addr = asker := hguard n hlisted haddr m hfound
    rw [← hasker]
    exact h.routed.ask (serials_desk s ▸ h.numbered.nodup_connected) hclient
  · intro _ hexclusive n' hn' haddr' m' hm'
    obtain rfl : n' = n :=
      List.inj_on_of_nodup_map (h.numbered.nodup_connected) hn' hlisted (haddr'.trans haddr.symm)
    obtain rfl := Option.some.inj (hfound.symm.trans hm')
    by_contra hother
    exact not_exclusive_ask hclient hother hexclusive

end Desk

section Steps

variable {s s' : State} {e : Event}

theorem decides_step (h : Inv s) (hstep : Step s e s') :
    (roster s'.loop.server).Numbered ∧ Decides (KeepsApart s e) (desk s') := by
  obtain ⟨-, hok⟩ := hstep
  cases e with
  | loop l =>
      obtain ⟨loop', hloop, hok⟩ := bind_eq_ok.mp hok
      obtain rfl := Except.ok.inj hok
      have hroster := roster_eventLoop hloop
      refine ⟨hroster ▸ numbered_rosterAfter h.numbered l, ?_⟩
      have hdecides := decides_rosterAfter h l
      rw [← hroster] at hdecides
      exact hdecides
  | inquiryRfInfo asker =>
      obtain ⟨n, hn, hok⟩ := bind_eq_ok.mp hok
      obtain rfl := Except.ok.inj hok
      refine ⟨h.numbered, ?_⟩
      have hsame : ∀ q,
          q ∈ s.workers ++ [⟨findUserNodeId n.connfd s.loop.server, asker⟩] ++ s.ready ↔
          q ∈ s.workers ++ s.ready ++ [⟨findUserNodeId n.connfd s.loop.server, asker⟩] := by
        intro q
        simp only [List.mem_append]
        tauto
      exact (decides_inquiry h hn).reorder hsame
  | inquiryRfStateWrapper k =>
      obtain rfl := Except.ok.inj hok
      unfold inquiryRfStateWrapper
      split
      · exact ⟨h.numbered, decides_of_routed trivial h.routed⟩
      · rename_i q hq
        refine ⟨h.numbered, decides_of_routed trivial ?_⟩
        refine h.routed.mono (List.Sublist.refl _) ?_ (Nat.le_refl _)
        have hdone : q ∈ s.workers := List.mem_of_getElem? hq
        intro q' hq'
        simp only [desk, deskOf, List.mem_append, List.mem_singleton] at hq' ⊢
        rcases hq' with hwaiting | hready | rfl
        · exact .inl (List.mem_of_mem_eraseIdx hwaiting)
        · exact .inr hready
        · exact .inl hdone
  | rfInfoReady =>
      obtain rfl := Except.ok.inj hok
      cases hready : s.ready with
      | nil =>
          simp only [handleRfInfoReady, hready]
          exact ⟨h.numbered, decides_of_routed trivial h.routed⟩
      | cons q ready =>
          obtain ⟨responses, hhandled⟩ :
              ∃ responses, handleRfInfoReady s = { s with ready, responses } := by
            simp only [handleRfInfoReady, hready]
            split
            · exact ⟨s.responses, rfl⟩
            · exact ⟨_, rfl⟩
          rw [hhandled]
          refine ⟨h.numbered, decides_of_routed trivial ?_⟩
          refine h.routed.mono (List.Sublist.refl _) ?_ (Nat.le_refl _)
          intro q' hq'
          simp only [desk, deskOf, hready, List.mem_append, List.mem_cons] at hq' ⊢
          tauto

theorem answeredRight (h : Inv s) (hstep : Step s e s') : AnsweredRight s e s' := by
  obtain ⟨-, hok⟩ := hstep
  rintro q ready rfl hready
  obtain rfl := Except.ok.inj hok
  have hq : q ∈ (desk s).outstanding := by simp [desk, deskOf, hready]
  have hrecipient := h.routed.recipient hq
  rw [recipient_desk, serials_desk] at hrecipient
  unfold handleRfInfoReady
  rw [hready]
  split at hrecipient
  · rename_i hin
    obtain ⟨n, hn, haddr⟩ := Option.map_eq_some_iff.mp hrecipient
    simp [hn, haddr, hin]
  · rename_i hout
    rw [Option.map_eq_none_iff] at hrecipient
    simp [hrecipient, hout]

theorem inv_started (hs : Started s) : Inv s := by
  refine ⟨numbered_started hs.loop, ?_⟩
  simp only [desk, hs.workers, hs.ready, roster, members, hs.loop.server]
  exact routed_empty 0

end Steps

/-- Over a run the ids stay apart and the answers reach the sessions that asked
exactly if every event meets its condition. -/
theorem answers_reach_askers_iff {s₀ s : State} {trs : List (Transition State Event)}
    (hs : Started s₀) (h : Run Step s₀ trs s) :
    IdsApart s₀ ∧
      ((∀ tr ∈ trs, IdsApart tr.after ∧ AnsweredRight tr.before tr.label tr.after) ↔
        ∀ tr ∈ trs, KeepsApart tr.before tr.label) := by
  have hstart := inv_started hs
  have hkeep : ∀ a e b, Inv a → KeepsApart a e → Step a e b →
      Inv b ∧ IdsApart b ∧ AnsweredRight a e b := by
    intro a e b ha hguard hstep
    obtain ⟨hnumbered, hdecides⟩ := decides_step ha hstep
    have hrouted := hdecides.routed hguard
    exact ⟨⟨hnumbered, hrouted⟩, idsApart_iff.mpr ⟨hrouted.distinct, hrouted.exclusive⟩,
      answeredRight ha hstep⟩
  have hbreak : ∀ a e b, Inv a → ¬ KeepsApart a e → Step a e b →
      ¬ (IdsApart b ∧ AnsweredRight a e b) := by
    rintro a e b ha hguard hstep ⟨hapart, -⟩
    obtain ⟨hdistinct, hexclusive⟩ := idsApart_iff.mp hapart
    exact hguard ((decides_step ha hstep).2.apart hdistinct hexclusive)
  exact ⟨idsApart_iff.mpr ⟨hstart.routed.distinct, hstart.routed.exclusive⟩,
    h.forall_good_iff hkeep hbreak hstart⟩

def startState (openJson closeJson : MosquittoBroker.ControlJson) : State :=
  { loop := EventProcess.startState openJson closeJson, workers := [], ready := [],
    responses := [] }

theorem startState_started (openJson closeJson : MosquittoBroker.ControlJson) :
    Started (startState openJson closeJson) :=
  ⟨EventProcess.startState_started openJson closeJson, rfl, rfl, rfl⟩

/-- Two pages ask; the first one to ask has gone when its answer is ready. -/
theorem answers_reach_two_askers :
    ∃ trs s, Run Step (startState ⟨"dev", "1"⟩ ⟨"dev", "0"⟩) trs s ∧
      s.responses = [(1, ⟨2, 1⟩)] ∧
      ∀ tr ∈ trs, IdsApart tr.after ∧ AnsweredRight tr.before tr.label tr.after := by
  obtain ⟨trs, s, hs, hresponses⟩ :
      ∃ trs s, replay (attempt (fun s e => KeepsApart s e ∧ Possible s e) execute)
          (startState ⟨"dev", "1"⟩ ⟨"dev", "0"⟩)
          [.loop ⟨.acceptNewUser 7, .success⟩, .loop ⟨.acceptNewUser 8, .success⟩,
            .inquiryRfInfo 0, .inquiryRfInfo 1, .inquiryRfStateWrapper 1,
            .loop ⟨.delDisconnectUser 7, .success⟩, .rfInfoReady, .inquiryRfStateWrapper 0,
            .rfInfoReady] = some (trs, s) ∧
        s.responses = [(1, ⟨2, 1⟩)] := ⟨_, _, rfl, rfl⟩
  obtain ⟨hrun, hguard⟩ := run_of_guarded_attempts hs
  exact ⟨trs, s, hrun, hresponses,
    (answers_reach_askers_iff (startState_started _ _) hrun).2.mpr hguard⟩

section Visits

variable {s : State} {connfd : Int}

theorem delUser_visitor (r : Replies) (s : EventProcess.State)
    (hnew : connfd ∉ sessionConnfds s.server) :
    ∃ s', delUser connfd r (handleAcceptNewUser connfd s) = .ok s' := by
  have hnone : (s.server.userSessionNodeHead.find? fun n => n.connfd = connfd) = none := by
    rw [List.find?_eq_none]
    intro n hn hconnfd
    exact hnew (List.mem_map.mpr ⟨n, hn, by simpa using hconnfd⟩)
  have hany : ((addNewUserNodeToList connfd s.server).userSessionNodeHead.any
      fun n => n.connfd = connfd) = true := by simp [addNewUserNodeToList]
  have hnode : (delUserNodeInList connfd (addNewUserNodeToList connfd s.server)).2 =
      some ⟨s.server.allocated, s.server.userNodeIdInit, connfd, .initial⟩ := by
    simp only [delUserNodeInList, FirstMatch.unlinkLoop_cursor_of_any hany]
    simp [addNewUserNodeToList, hnone]
  simp only [delUser, handleAcceptNewUser, enableDmaCallback, enableBrokerCallback, hnode]
  exact ⟨_, rfl⟩

theorem visit (hnew : connfd ∉ sessionConnfds s.loop.server) :
    ∃ trs s', Run Step s trs s' ∧
      roster s'.loop.server = ⟨members s.loop.server,
        followingId s.loop.server.userNodeIdInit, s.loop.server.allocated + 1⟩ ∧
      s'.workers = s.workers ∧ s'.ready = s.ready ∧ s'.responses = s.responses := by
  obtain ⟨loop', hdel⟩ := delUser_visitor .success s.loop hnew
  have hroster : roster (handleAcceptNewUser connfd s.loop).server =
      (roster s.loop.server).enter connfd := by
    simp [handleAcceptNewUser, enableBrokerCallback, enableDmaCallback]
  have henter : Step s (.loop ⟨.acceptNewUser connfd, .success⟩)
      { s with loop := handleAcceptNewUser connfd s.loop } :=
    ⟨fun c hc => by simp [Event.session?] at hc, rfl⟩
  have hleave : Step { s with loop := handleAcceptNewUser connfd s.loop }
      (.loop ⟨.delDisconnectUser connfd, .success⟩) { s with loop := loop' } := by
    refine ⟨?_, ?_⟩
    · intro c hc
      obtain rfl := Option.some.inj hc
      rw [← sessionConnfds_roster, hroster]
      simp [Roster.enter]
    · exact bind_eq_ok.mpr ⟨loop', hdel, rfl⟩
  refine ⟨_, _, .cons henter (.cons hleave (.nil _)), ?_, rfl, rfl, rfl⟩
  rw [roster_delUser hdel, hroster, Roster.leave_enter, sessionConnfds_roster, if_neg hnew]
  rfl

/-- By induction on the number of visits. -/
theorem visits (n : Nat) (hnew : connfd ∉ sessionConnfds s.loop.server) :
    ∃ trs s', Run Step s trs s' ∧
      roster s'.loop.server = ⟨members s.loop.server,
        followingId^[n] s.loop.server.userNodeIdInit, s.loop.server.allocated + n⟩ ∧
      s'.workers = s.workers ∧ s'.ready = s.ready ∧ s'.responses = s.responses := by
  induction n with
  | zero => exact ⟨[], s, .nil s, rfl, rfl, rfl, rfl⟩
  | succ n ih =>
      obtain ⟨trs, t, hrun, hroster, hworkers, hready, hresponses⟩ := ih
      have hmembers : members t.loop.server = members s.loop.server :=
        congrArg Roster.members hroster
      have hnext : t.loop.server.userNodeIdInit = followingId^[n] s.loop.server.userNodeIdInit :=
        congrArg Roster.nextId hroster
      have hallocated : t.loop.server.allocated = s.loop.server.allocated + n :=
        congrArg Roster.allocated hroster
      have hnew' : connfd ∉ sessionConnfds t.loop.server := by
        rw [← sessionConnfds_roster] at hnew ⊢
        rw [hroster]
        exact hnew
      obtain ⟨trs', u, hrun', hroster', hworkers', hready', hresponses'⟩ := visit hnew'
      refine ⟨trs ++ trs', u, hrun.append hrun', ?_, hworkers'.trans hworkers,
        hready'.trans hready, hresponses'.trans hresponses⟩
      rw [hroster', hmembers, hnext, hallocated, Function.iterate_succ_apply']
      rfl

theorem followingId_iterate {id : Int} {n : Nat} (h : id + n ≤ 1024) :
    followingId^[n] id = id + n := by
  induction n with
  | zero => simp
  | succ n ih =>
      rw [Function.iterate_succ_apply', ih (by omega)]
      unfold followingId
      split
      · omega
      · omega

end Visits

/-- Connection 7 stays while 1023 pages come and go. The next one is given the id of
connection 7, which gets the answer that the new page asked for. -/
theorem answer_reaches_other_session :
    ∃ trs s s', Run Step (startState ⟨"dev", "1"⟩ ⟨"dev", "0"⟩) trs s ∧
      Step s .rfInfoReady s' ∧
      connected s.loop.server = [0, 1024] ∧ s.ready = [⟨1, 1024⟩] ∧
      s'.responses = [(0, ⟨1, 1024⟩)] ∧
      ¬ IdsApart s ∧ ¬ AnsweredRight s .rfInfoReady s' := by
  let start := startState ⟨"dev", "1"⟩ ⟨"dev", "0"⟩
  let s₁ : State := { start with loop := handleAcceptNewUser 7 start.loop }
  have hfirst : Step start (.loop ⟨.acceptNewUser 7, .success⟩) s₁ :=
    ⟨fun c hc => by simp [Event.session?] at hc, rfl⟩
  have hnew : (8 : Int) ∉ sessionConnfds s₁.loop.server := by decide
  obtain ⟨trs, t, hvisits, hroster, hworkers, hready, hresponses⟩ :=
    visits (1022 + 1) hnew
  have hnext : t.loop.server.userNodeIdInit = 1 := by
    have hid := congrArg Roster.nextId hroster
    have hsecond : s₁.loop.server.userNodeIdInit = 2 := rfl
    rw [Function.iterate_succ_apply', hsecond, followingId_iterate (by decide)] at hid
    exact hid
  have hallocated : t.loop.server.allocated = 1024 := congrArg Roster.allocated hroster
  obtain ⟨n, hn, hmember⟩ : ∃ n, t.loop.server.userSessionNodeHead = [n] ∧ member n = ⟨0, 1, 7⟩ :=
    List.map_eq_singleton_iff.mp (congrArg Roster.members hroster)
  obtain ⟨haddr, hid, hconnfd⟩ := Member.mk.inj hmember
  let t₁ : State := { t with loop := handleAcceptNewUser 9 t.loop }
  let q : Request Int := ⟨1, 1024⟩
  let t₂ : State := { t₁ with workers := [q] }
  let t₃ : State := { t₂ with workers := [], ready := [q] }
  let t₄ : State := { t₃ with ready := [], responses := [(0, q)] }
  have hnodes : t₁.loop.server.userSessionNodeHead = [n, ⟨1024, 1, 9, .initial⟩] := by
    simp [t₁, handleAcceptNewUser, enableBrokerCallback, enableDmaCallback, addNewUserNodeToList,
      hn, hallocated, hnext]
  have henter : Step t (.loop ⟨.acceptNewUser 9, .success⟩) t₁ :=
    ⟨fun c hc => by simp [Event.session?] at hc, rfl⟩
  have hask : Step t₁ (.inquiryRfInfo 1024) t₂ := by
    refine ⟨trivial, ?_⟩
    have hfound : pointedTo 1024 t₁.loop.server = .ok ⟨1024, 1, 9, .initial⟩ := by
      simp [pointedTo, hnodes, haddr]
    have hown : findUserNodeId 9 t₁.loop.server = 1 := by
      simp [findUserNodeId, findUserNodeByConnfd, hnodes, hconnfd]
    have hwaiting : t₁.workers = [] := hworkers
    refine bind_eq_ok.mpr ⟨_, hfound, ?_⟩
    simp only [hown, hwaiting]
    rfl
  have hwork : Step t₂ (.inquiryRfStateWrapper 0) t₃ := by
    have hnone : t₁.ready = [] := hready
    exact ⟨trivial, by simp [execute, inquiryRfStateWrapper, t₂, t₃, hnone]⟩
  have hanswer : Step t₃ .rfInfoReady t₄ := by
    have hfirst : findUserNodeByUserId 1 t₃.loop.server = some n := by
      simp [findUserNodeByUserId, t₃, t₂, hnodes, hid]
    have hnone : t₂.responses = [] := hresponses
    exact ⟨trivial, by simp [execute, handleRfInfoReady, t₄, t₃, q, hfirst, haddr, hnone]⟩
  have hconnected : connected t₃.loop.server = [0, 1024] := by
    simp [connected, t₃, t₂, hnodes, haddr]
  refine ⟨_, t₃, t₄, .cons hfirst (hvisits.append (.cons henter (.cons hask (.cons hwork
    (.nil _))))), hanswer, hconnected, rfl, rfl, ?_, ?_⟩
  · rintro ⟨hdistinct, -⟩
    simp [t₃, t₂, hnodes, hid] at hdistinct
  · intro hright
    have hsent := hright q [] rfl rfl
    have hnone : t₃.responses = [] := hresponses
    simp [hconnected, t₄, q, hnone] at hsent

end GwWeb.RfAnswers
