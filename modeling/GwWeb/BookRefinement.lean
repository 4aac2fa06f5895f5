import GwWeb.EventProcess
import GwWeb.UserBook

/-!
The event loop refines the user book: each event it survives is a list of book
actions, none for most events.
-/

namespace GwWeb.BookRefinement

open CountedService
open FirstMatch
open GwWeb.WebCommon
open GwWeb.Server
open GwWeb.MosquittoBroker
open GwWeb.DmaHandler
open GwWeb.EventProcess
open GwWeb.UserBook

/-- What the book has of a `user_session_node`. -/
def bookSession (n : UserSessionNode) : Session :=
  { connfd := n.connfd
    rssi := n.recordAction.enableRssi
    csi := n.recordAction.enableStartCsi
    constell := n.recordAction.enableStartConstell }

/-- A transfer as a command: `timer` "0" switches the samples off. -/
def rssiCommand (t : ControlJson × TransferReply) : Command :=
  if t.1.timer = "0" then .stop else .start (t.2.code = 0)

/-- A call of the DMA library as a command. -/
def axidmaCommand : AxidmaCommand → Command
  | .start _ rc => .start (rc = 0)
  | .stop _ => .stop

/-- The RSSI samples in `g_broker_para`. -/
def rssiService (g : GBrokerPara) : Service Int :=
  { state := g.rssiState
    cnt := g.rssiUserCnt
    users := g.rssiUserNodeHead.map UserNode.connfd
    commands := g.transfers.map rssiCommand }

/-- CSI in `g_dma_para`. -/
def csiService (g : GDmaPara) : Service Int :=
  { state := g.csiState
    cnt := g.csiUserCnt
    users := g.csiUserNodeHead.map UserNode.connfd
    commands := g.csiCommands.map axidmaCommand }

/-- The constellation in `g_dma_para`. -/
def constellService (g : GDmaPara) : Service Int :=
  { state := g.constellationState
    cnt := g.constellationUserCnt
    users := g.constellUserNodeHead.map UserNode.connfd
    commands := g.constellationCommands.map axidmaCommand }

/-- The book the state stands for. -/
def book (s : State) : Book :=
  { sessions := s.server.userSessionNodeHead.map bookSession
    sessionCnt := s.server.userSessionCnt
    rssi := rssiService s.broker
    csi := csiService s.dma
    constell := constellService s.dma }

def brokerConstants (g : GBrokerPara) : ControlJson × ControlJson :=
  (g.rssiOpenJson, g.rssiCloseJson)

/-- What no event changes in the DMA module: the device, and how far the counter
of the save list is off. -/
def dmaConstants (g : GDmaPara) : Bool × Int :=
  (g.pAxidma, g.csiSaveUserCnt - g.csiSaveUserNodeHead.length)

def constants (s : State) : (ControlJson × ControlJson) × Bool × Int :=
  (brokerConstants s.broker, dmaConstants s.dma)

/-- What a transfer asks for, and what becomes of it. -/
def transferExchange (buf : ControlJson) (reply : TransferReply) : Exchange :=
  { target := if buf.timer = "0" then 0 else 1
    delivered := reply.Delivered
    agreed := reply.code = 0 }

/-- `axidma_chan` and `axidma_start`: the flag is set whatever they answer. -/
def startExchange (r : StartReply) : Exchange :=
  { target := 1, delivered := true, agreed := r.start = 0 }

/-- `axidma_stop`, which is not asked whether it worked. -/
def stopExchange : Exchange := { target := 0, delivered := true, agreed := true }

def leaveAction (connfd : Int) (r : Replies) (s : State) : Action :=
  .leave connfd (transferExchange s.broker.rssiCloseJson r.transfer) stopExchange stopExchange

/-- The book actions an event stands for. -/
def actions (s : State) (l : Label) : List Action :=
  match l.event with
  | .acceptNewUser connfd => [.enter connfd]
  | .delDisconnectUser connfd => [leaveAction connfd l.replies s]
  | .openwrtConnected =>
      if s.server.openwrtLink = 0 then []
      else if l.replies.eventfdWrite = -1 then
        [.enter s.server.openwrtConnfd, leaveAction s.server.openwrtConnfd l.replies s]
      else [.enter s.server.openwrtConnfd]
  | .inquiryRssi connfd =>
      [.openRssi connfd (transferExchange s.broker.rssiOpenJson l.replies.transfer)]
  | .startCsi connfd => [.startCsi connfd (startExchange l.replies.start)]
  | .stopCsi connfd => [.stopCsi connfd stopExchange]
  | .startConstellation connfd => [.startConstell connfd (startExchange l.replies.start)]
  | .stopConstellation connfd => [.stopConstell connfd stopExchange]
  | _ => []

section Broker

theorem rssiService_controlled (buf : ControlJson) (reply : TransferReply) (g : GBrokerPara) :
    rssiService (controlled buf reply g) =
      (rssiService g).control (transferExchange buf reply) := by
  simp only [rssiService, controlled, Service.control, transferExchange, Exchange.command,
    List.map_cons, rssiCommand, decide_eq_true_eq]
  rcases eq_or_ne buf.timer "0" with htimer | htimer
  · simp [htimer]
  · simp [htimer]

theorem rssiService_addRssiUserNode (connfd : Int) (g : GBrokerPara) :
    rssiService (addRssiUserNode connfd g) = (rssiService g).append connfd := by
  simp [rssiService, addRssiUserNode, Service.append]

theorem openRssiStateExternal_service {connfd : Int} {reply : TransferReply} {g g' : GBrokerPara}
    {ret : Int} (h : openRssiStateExternal connfd reply g = .ok (ret, g')) :
    let e := transferExchange g.rssiOpenJson reply
    if (rssiService g).Refuses e then ret = -1 ∧ rssiService g' = (rssiService g).wake e
    else ret = 0 ∧ rssiService g' = ((rssiService g).wake e).append connfd := by
  have hidle : (g.rssiUserCnt = 0 ∧ g.rssiState = 0) = (rssiService g).Idle := rfl
  have hagreed : (transferExchange g.rssiOpenJson reply).agreed = decide (reply.code = 0) := rfl
  have hout := openRssiStateExternal_ok h
  simp only [hidle] at hout
  simp only [Service.Refuses, Service.wake, hagreed, decide_eq_true_eq, ← rssiService_controlled]
  rcases Classical.em (rssiService g).Idle with hi | hi
  · rcases Classical.em (reply.code = 0) with hcode | hcode
    · simp only [hi, hcode, if_true] at hout
      obtain ⟨rfl, rfl⟩ := Prod.mk.inj hout
      simp [hi, hcode, rssiService_addRssiUserNode]
    · simp only [hi, hcode, if_true, if_false] at hout
      obtain ⟨rfl, rfl⟩ := Prod.mk.inj hout
      simp [hi, hcode]
  · simp only [hi, if_false] at hout
    obtain ⟨rfl, rfl⟩ := Prod.mk.inj hout
    simp [hi, rssiService_addRssiUserNode]

theorem openRssiStateExternal_constants {connfd : Int} {reply : TransferReply}
    {g g' : GBrokerPara} {ret : Int} (h : openRssiStateExternal connfd reply g = .ok (ret, g')) :
    brokerConstants g' = brokerConstants g := by
  have hg' := congrArg Prod.snd (openRssiStateExternal_ok h)
  dsimp only at hg'
  rw [hg']
  split
  · split <;> rfl
  · rfl

theorem unlinkRssiUserNode_service {connfd : Int} {g g' : GBrokerPara}
    (h : unlinkRssiUserNode connfd g = .ok g') :
    rssiService g' = (rssiService g).unlist connfd ∧ brokerConstants g' = brokerConstants g := by
  obtain ⟨freed, confirmDelete, rfl⟩ := unlinkRssiUserNode_ok h
  refine ⟨?_, rfl⟩
  simp only [rssiService, Service.unlist, map_eraseP_key UserNode.connfd connfd]
  simp

theorem closeRssiStateExternal_service {connfd : Int} {reply : TransferReply}
    {g g' : GBrokerPara} (h : closeRssiStateExternal connfd reply g = .ok g') :
    rssiService g' =
        (rssiService g).remove connfd (transferExchange g.rssiCloseJson reply) ∧
      brokerConstants g' = brokerConstants g := by
  obtain ⟨g₁, hunlink, rfl, -⟩ := closeRssiStateExternal_eq_ok_iff.mp h
  obtain ⟨hservice, hconst⟩ := unlinkRssiUserNode_service hunlink
  have hjson : g₁.rssiCloseJson = g.rssiCloseJson := (Prod.mk.inj hconst).2
  have hunused : (g₁.rssiUserCnt = 0 ∧ g₁.rssiState = 1) = (rssiService g₁).Unused := rfl
  constructor
  · simp only [closed, Service.remove, hunused, ← hservice, apply_ite rssiService,
      rssiService_controlled, hjson]
  · rw [← hconst]
    unfold closed
    split <;> rfl

theorem undoBroker_service {connfd : Int} {action : RecordAction} {r : Replies}
    {g g' : GBrokerPara} (h : undoBroker connfd action r g = .ok g') :
    rssiService g' =
        (if action.enableRssi ≠ 0 then
          (rssiService g).remove connfd (transferExchange g.rssiCloseJson r.transfer)
        else rssiService g) ∧
      brokerConstants g' = brokerConstants g := by
  obtain ⟨save, -, ⟨hrssi, rfl⟩ | ⟨hrssi, hclose⟩⟩ := undoBroker_ok h
  · rw [if_neg (not_not.mpr hrssi)]
    exact ⟨rfl, rfl⟩
  · rw [if_pos hrssi]
    have hservice := closeRssiStateExternal_service hclose
    exact hservice

end Broker

section Dma

theorem csiService_startCsi {r : StartReply} {g : GDmaPara} (hp : g.pAxidma = true) :
    csiService (startCsi r g).2 = (csiService g).control (startExchange r) := by
  simp [startCsi_eq, hp, csiService, Service.control, startExchange, Exchange.command,
    axidmaCommand]

theorem csiService_addCsiUserNode (connfd : Int) (g : GDmaPara) :
    csiService (addCsiUserNode connfd g) = (csiService g).add connfd := by
  have hmem : (findCsiUserNode connfd g).isSome = true ↔
      connfd ∈ (csiService g).users := by
    simp [findCsiUserNode, csiService]
  simp only [addCsiUserNode_eq, hmem, Service.add]
  split
  · rfl
  · simp [csiService, Service.append]

theorem startCsiStateExternal_service (connfd : Int) (r : StartReply) {g : GDmaPara}
    (hp : g.pAxidma = true) :
    let e := startExchange r
    if (csiService g).Refuses e then
      (startCsiStateExternal connfd r g).1 = -1 ∧
        csiService (startCsiStateExternal connfd r g).2 = (csiService g).wake e
    else
      (startCsiStateExternal connfd r g).1 = 0 ∧
        csiService (startCsiStateExternal connfd r g).2 = ((csiService g).wake e).add connfd := by
  have hidle : (g.csiUserCnt = 0 ∧ g.csiState = 0) = (csiService g).Idle := rfl
  have hret : (startCsi r g).1 = r.start := by simp [startCsi_eq, hp]
  have hagreed : (startExchange r).agreed = decide (r.start = 0) := rfl
  simp only [startCsiStateExternal, Service.Refuses, Service.wake, hidle, hagreed,
    decide_eq_true_eq]
  by_cases hi : (csiService g).Idle
  · simp only [hi, if_true, true_and, hret, ← csiService_startCsi hp]
    rcases eq_or_ne r.start 0 with hstart | hstart
    · simp only [hstart, ne_eq, not_true_eq_false, if_false]
      exact ⟨trivial, csiService_addCsiUserNode _ _⟩
    · simp only [hstart, ne_eq, not_false_eq_true, if_true, and_self]
  · simp only [hi, if_false, false_and]
    exact ⟨trivial, csiService_addCsiUserNode _ _⟩

theorem stopCsiStateExternal_service (connfd rc : Int) {g : GDmaPara}
    (hp : g.pAxidma = true) :
    csiService (stopCsiStateExternal connfd rc g) =
      (csiService g).remove connfd stopExchange := by
  have hany : (g.csiUserNodeHead.any fun n => n.connfd = connfd) = true ↔
      connfd ∈ (csiService g).users := by
    simp [csiService]
  have hunlist : (csiService g).unlist connfd =
      { state := g.csiState
        cnt := if connfd ∈ (csiService g).users then g.csiUserCnt - 1 else g.csiUserCnt
        users := (g.csiUserNodeHead.map UserNode.connfd).erase connfd
        commands := g.csiCommands.map axidmaCommand } := rfl
  simp only [stopCsiStateExternal_eq, unlinkLoop_found, unlinkLoop_list, hany, hp, and_true,
    Service.remove, hunlist, Service.Unused]
  generalize (if connfd ∈ (csiService g).users then g.csiUserCnt - 1
    else g.csiUserCnt) = cnt
  by_cases hlast : cnt = 0 ∧ g.csiState = 1
  · simp [hlast, csiService, Service.control, stopExchange, Exchange.command, axidmaCommand,
      map_eraseP_key UserNode.connfd connfd]
  · simp [hlast, csiService, map_eraseP_key UserNode.connfd connfd]

theorem constellService_startConstellation {r : StartReply} {g : GDmaPara}
    (hp : g.pAxidma = true) :
    constellService (startConstellation r g).2 =
      (constellService g).control (startExchange r) := by
  simp [startConstellation_eq, hp, constellService, Service.control, startExchange,
    Exchange.command, axidmaCommand]

theorem constellService_addConstellUserNode (connfd : Int) (g : GDmaPara) :
    constellService (addConstellUserNode connfd g) = (constellService g).add connfd := by
  have hmem : (findConstellUserNode connfd g).isSome = true ↔
      connfd ∈ (constellService g).users := by
    simp [findConstellUserNode, constellService]
  simp only [addConstellUserNode_eq, hmem, Service.add]
  split
  · rfl
  · simp [constellService, Service.append]

theorem startConstellationExternal_service (connfd : Int) (r : StartReply) {g : GDmaPara}
    (hp : g.pAxidma = true) :
    constellService (startConstellationExternal connfd r g).2 =
      ((constellService g).wake (startExchange r)).add connfd := by
  have hidle : (g.constellationUserCnt = 0 ∧ g.constellationState = 0) =
      (constellService g).Idle := rfl
  simp only [startConstellationExternal, Service.wake, hidle]
  split
  · rw [← constellService_startConstellation hp]
    exact constellService_addConstellUserNode _ _
  · exact constellService_addConstellUserNode _ _

theorem stopConstellationExternal_service (connfd rc : Int) {g : GDmaPara}
    (hp : g.pAxidma = true) :
    constellService (stopConstellationExternal connfd rc g) =
      (constellService g).remove connfd stopExchange := by
  have hany : (g.constellUserNodeHead.any fun n => n.connfd = connfd) = true ↔
      connfd ∈ (constellService g).users := by
    simp [constellService]
  have hunlist : (constellService g).unlist connfd =
      { state := g.constellationState
        cnt := if connfd ∈ (constellService g).users then g.constellationUserCnt - 1
          else g.constellationUserCnt
        users := (g.constellUserNodeHead.map UserNode.connfd).erase connfd
        commands := g.constellationCommands.map axidmaCommand } := rfl
  simp only [stopConstellationExternal_eq, unlinkLoop_found, unlinkLoop_list, hany, hp, and_true,
    Service.remove, hunlist, Service.Unused]
  generalize (if connfd ∈ (constellService g).users then g.constellationUserCnt - 1
    else g.constellationUserCnt) = cnt
  by_cases hlast : cnt = 0 ∧ g.constellationState = 1
  · simp [hlast, constellService, Service.control, stopExchange, Exchange.command, axidmaCommand,
      map_eraseP_key UserNode.connfd connfd]
  · simp [hlast, constellService, map_eraseP_key UserNode.connfd connfd]

theorem startCsi_frame (r : StartReply) (g : GDmaPara) :
    constellService (startCsi r g).2 = constellService g ∧
      dmaConstants (startCsi r g).2 = dmaConstants g := by
  rw [startCsi_eq]
  exact ⟨rfl, rfl⟩

theorem addCsiUserNode_frame (connfd : Int) (g : GDmaPara) :
    constellService (addCsiUserNode connfd g) = constellService g ∧
      dmaConstants (addCsiUserNode connfd g) = dmaConstants g := by
  rw [addCsiUserNode_eq]
  exact ⟨rfl, rfl⟩

theorem startCsiStateExternal_frame (connfd : Int) (r : StartReply) (g : GDmaPara) :
    constellService (startCsiStateExternal connfd r g).2 = constellService g ∧
      dmaConstants (startCsiStateExternal connfd r g).2 = dmaConstants g := by
  obtain ⟨hservice, hp⟩ := startCsi_frame r g
  unfold startCsiStateExternal
  split
  · simp only
    split
    · exact ⟨hservice, hp⟩
    · obtain ⟨hadd, hpadd⟩ := addCsiUserNode_frame connfd (startCsi r g).2
      exact ⟨hadd.trans hservice, hpadd.trans hp⟩
  · exact addCsiUserNode_frame connfd g

theorem stopCsiStateExternal_frame (connfd rc : Int) (g : GDmaPara) :
    constellService (stopCsiStateExternal connfd rc g) = constellService g ∧
      dmaConstants (stopCsiStateExternal connfd rc g) = dmaConstants g := by
  rw [stopCsiStateExternal_eq]
  exact ⟨rfl, rfl⟩

theorem addConstellUserNode_frame (connfd : Int) (g : GDmaPara) :
    csiService (addConstellUserNode connfd g) = csiService g ∧
      dmaConstants (addConstellUserNode connfd g) = dmaConstants g := by
  rw [addConstellUserNode_eq]
  exact ⟨rfl, rfl⟩

theorem startConstellationExternal_frame (connfd : Int) (r : StartReply) (g : GDmaPara) :
    csiService (startConstellationExternal connfd r g).2 = csiService g ∧
      dmaConstants (startConstellationExternal connfd r g).2 = dmaConstants g := by
  unfold startConstellationExternal
  split
  · obtain ⟨hadd, hp⟩ := addConstellUserNode_frame connfd (startConstellation r g).2
    rw [startConstellation_eq] at hadd hp
    rw [startConstellation_eq]
    exact ⟨hadd, hp⟩
  · exact addConstellUserNode_frame connfd g

theorem stopConstellationExternal_frame (connfd rc : Int) (g : GDmaPara) :
    csiService (stopConstellationExternal connfd rc g) = csiService g ∧
      dmaConstants (stopConstellationExternal connfd rc g) = dmaConstants g := by
  rw [stopConstellationExternal_eq]
  exact ⟨rfl, rfl⟩

theorem undoDma_service {connfd : Int} {action : RecordAction} {r : Replies} {g g' : GDmaPara}
    (hp : g.pAxidma = true) (h : undoDma connfd action r g = .ok g') :
    csiService g' =
        (if action.enableStartCsi ≠ 0 then (csiService g).remove connfd stopExchange
          else csiService g) ∧
      constellService g' =
        (if action.enableStartConstell ≠ 0 then (constellService g).remove connfd stopExchange
          else constellService g) ∧
      dmaConstants g' = dmaConstants g := by
  obtain ⟨save, -, rfl⟩ := undoDma_ok h
  set g₁ := if action.enableStartCsi ≠ 0 then stopCsiStateExternal connfd r.stopCsi g else g
    with hg₁
  have hcsi : csiService g₁ =
      if action.enableStartCsi ≠ 0 then (csiService g).remove connfd stopExchange
      else csiService g := by
    rw [hg₁, apply_ite csiService, stopCsiStateExternal_service _ _ hp]
  have hframe : constellService g₁ = constellService g ∧ dmaConstants g₁ = dmaConstants g := by
    rw [hg₁]
    split
    · exact stopCsiStateExternal_frame connfd r.stopCsi g
    · exact ⟨rfl, rfl⟩
  have hp₁ : g₁.pAxidma = true := (Prod.mk.inj hframe.2).1.trans hp
  split
  · obtain ⟨hc, hconst⟩ := stopConstellationExternal_frame connfd r.stopConstellation
      { g₁ with save }
    have hstopped := stopConstellationExternal_service connfd r.stopConstellation
      (g := { g₁ with save }) hp₁
    exact ⟨hc.trans hcsi, by rw [← hframe.1]; exact hstopped, hconst.trans hframe.2⟩
  · exact ⟨hcsi, hframe.1, hframe.2⟩

end Dma

section Sessions

theorem sessions_addNewUserNodeToList (connfd : Int) (g : GServerPara) :
    (addNewUserNodeToList connfd g).userSessionNodeHead.map bookSession =
      g.userSessionNodeHead.map bookSession ++
        [{ connfd, rssi := 0, csi := 0, constell := 0 }] := by
  simp [addNewUserNodeToList, bookSession, RecordAction.initial]

theorem sessions_recordAction {connfd : Int} {f : RecordAction → RecordAction} {k : Kind}
    {x : Int}
    (hf : ∀ n : UserSessionNode,
      bookSession { n with recordAction := f n.recordAction } = (bookSession n).setFlag k x)
    (g : GServerPara) :
    (recordAction connfd f g).userSessionNodeHead.map bookSession =
      setFlag connfd k x (g.userSessionNodeHead.map bookSession) := by
  unfold recordAction setFlag
  apply map_updateFirst_comm
  · intro n
    rfl
  · intro n _
    exact hf n

theorem sessions_recordAction_same {connfd : Int} {f : RecordAction → RecordAction}
    (hf : ∀ n : UserSessionNode,
      bookSession { n with recordAction := f n.recordAction } = bookSession n)
    (g : GServerPara) :
    (recordAction connfd f g).userSessionNodeHead.map bookSession =
      g.userSessionNodeHead.map bookSession :=
  map_updateFirst bookSession (fun n _ => hf n) _

theorem recordRssiSaveEnable_sessions {connfd : Int} {root : CJson} {g g' : GServerPara}
    (h : recordRssiSaveEnable connfd root g = .ok g') :
    g'.userSessionNodeHead.map bookSession = g.userSessionNodeHead.map bookSession ∧
      g'.userSessionCnt = g.userSessionCnt := by
  obtain ⟨flag, -, h⟩ := bind_eq_ok.mp h
  cases flag with
  | none =>
      cases Except.ok.inj h
      exact ⟨rfl, rfl⟩
  | some flag =>
      cases Except.ok.inj h
      exact ⟨sessions_recordAction_same (fun _ => rfl) g, rfl⟩

theorem recordCsiSaveEnable_sessions {connfd : Int} {root : CJson} {g g' : GServerPara}
    (h : recordCsiSaveEnable connfd root g = .ok g') :
    g'.userSessionNodeHead.map bookSession = g.userSessionNodeHead.map bookSession ∧
      g'.userSessionCnt = g.userSessionCnt := by
  obtain ⟨flag, -, h⟩ := bind_eq_ok.mp h
  cases flag with
  | none =>
      cases Except.ok.inj h
      exact ⟨rfl, rfl⟩
  | some flag =>
      cases Except.ok.inj h
      exact ⟨sessions_recordAction_same (fun _ => rfl) g, rfl⟩

theorem checkWorking_eq_one_iff (flag : RecordAction → Int) (l : List UserSessionNode)
    {state : Int} (hstate : state ≠ 1) :
    checkWorking flag l state = 1 ↔ ∃ n ∈ l, flag n.recordAction = 1 := by
  induction l generalizing state with
  | nil => simpa [checkWorking] using hstate
  | cons n ns ih =>
      rcases eq_or_ne (flag n.recordAction) 1 with hn | hn
      · simp [checkWorking, hn]
      · simp [checkWorking, hn, ih hn]

theorem checkConstellWorking_iff (s : State) :
    checkConstellWorking s.server = 1 ↔ ∃ n ∈ (book s).sessions, n.constell = 1 := by
  rw [checkConstellWorking, checkWorking_eq_one_iff _ _ (by decide)]
  simp [book, bookSession]

theorem checkCsiWorking_iff (s : State) :
    checkCsiWorking s.server = 1 ↔ ∃ n ∈ (book s).sessions, n.csi = 1 := by
  rw [checkCsiWorking, checkWorking_eq_one_iff _ _ (by decide)]
  simp [book, bookSession]

end Sessions

theorem delUser_ok {connfd : Int} {r : Replies} {s s' : State}
    (hin : connfd ∈ sessionConnfds s.server) (h : delUser connfd r s = .ok s') :
    ∃ n, findUserNodeByConnfd connfd s.server = some n ∧
      s'.server.userSessionNodeHead =
        s.server.userSessionNodeHead.eraseP (fun n => n.connfd = connfd) ∧
      s'.server.userSessionCnt = s.server.userSessionCnt - 1 ∧
      undoBroker connfd n.recordAction r s.broker = .ok s'.broker ∧
      undoDma connfd n.recordAction r s.dma = .ok s'.dma := by
  have hany : (s.server.userSessionNodeHead.any fun n => n.connfd = connfd) = true := by
    simpa [sessionConnfds] using hin
  obtain ⟨n, hn⟩ := Option.isSome_iff_exists.mp
    (List.find?_isSome.mpr (List.any_eq_true.mp hany))
  refine ⟨n, hn, ?_⟩
  simp only [delUser, delUserNodeInList, unlinkLoop_cursor_of_any hany, hn, unlinkLoop_found, hany,
    unlinkLoop_list, if_true, bind_eq_ok] at h
  obtain ⟨broker, hbroker, dma, hdma, h⟩ := h
  cases Except.ok.inj h
  exact ⟨rfl, rfl, hbroker, hdma⟩

theorem delUser_book {connfd : Int} {r : Replies} {s s' : State} (hp : s.dma.pAxidma = true)
    (hin : connfd ∈ sessionConnfds s.server) (h : delUser connfd r s = .ok s') :
    book s' = (book s).act (leaveAction connfd r s) ∧ constants s' = constants s := by
  obtain ⟨n, hn, hlist, hcount, hbroker, hdma⟩ := delUser_ok hin h
  obtain ⟨hrssi, hbconst⟩ := undoBroker_service hbroker
  obtain ⟨hcsi, hconstell, hdconst⟩ := undoDma_service hp hdma
  have hfind : (book s).sessions.find? (fun n => n.connfd = connfd) = some (bookSession n) := by
    rw [book, List.find?_map]
    exact congrArg (Option.map bookSession) hn
  have herase : s'.server.userSessionNodeHead.map bookSession =
      ((s.server.userSessionNodeHead.map bookSession).eraseP fun n => n.connfd = connfd) := by
    rw [hlist, List.eraseP_map]
    rfl
  refine ⟨?_, congrArg₂ Prod.mk hbconst hdconst⟩
  simp only [Book.act, leaveAction, Book.leave, hfind]
  simp only [book, herase, hcount, hrssi, hcsi, hconstell, bookSession]
  rfl

theorem handleAcceptNewUser_book (connfd : Int) (s : State) :
    book (handleAcceptNewUser connfd s) = (book s).act (.enter connfd) ∧
      constants (handleAcceptNewUser connfd s) = constants s := by
  have hbroker : rssiService (handleAcceptNewUser connfd s).broker = rssiService s.broker ∧
      brokerConstants (handleAcceptNewUser connfd s).broker = brokerConstants s.broker := by
    simp only [handleAcceptNewUser, enableDmaCallback, enableBrokerCallback]
    split <;> exact ⟨rfl, rfl⟩
  have hdma : csiService (handleAcceptNewUser connfd s).dma = csiService s.dma ∧
      constellService (handleAcceptNewUser connfd s).dma = constellService s.dma ∧
      dmaConstants (handleAcceptNewUser connfd s).dma = dmaConstants s.dma := by
    simp only [handleAcceptNewUser, enableDmaCallback, enableBrokerCallback]
    split <;> exact ⟨rfl, rfl, rfl⟩
  obtain ⟨hrssi, hbconst⟩ := hbroker
  obtain ⟨hcsi, hconstell, hdconst⟩ := hdma
  have hsessions := sessions_addNewUserNodeToList connfd s.server
  refine ⟨?_, congrArg₂ Prod.mk hbconst hdconst⟩
  simp only [book, Book.act, hrssi, hcsi, hconstell]
  exact congrArg
    (fun sessions => Book.mk sessions (s.server.userSessionCnt + 1) (rssiService s.broker)
      (csiService s.dma) (constellService s.dma)) hsessions

theorem handleInquiryRssi_book {connfd : Int} {r : Replies} {s s' : State}
    (h : handleInquiryRssi connfd r s = .ok s') :
    book s' =
        (book s).act (.openRssi connfd (transferExchange s.broker.rssiOpenJson r.transfer)) ∧
      constants s' = constants s := by
  obtain ⟨⟨ret, broker⟩, hopen, h⟩ := bind_eq_ok.mp h
  cases Except.ok.inj h
  have hservice := openRssiStateExternal_service hopen
  have hconst := openRssiStateExternal_constants hopen
  refine ⟨?_, congrArg₂ Prod.mk hconst rfl⟩
  have hrssi : (book s).rssi = rssiService s.broker := rfl
  simp only at hservice
  simp only [Book.act, Book.openRssi, hrssi]
  split at hservice
  · rename_i hrefused
    obtain ⟨rfl, hservice⟩ := hservice
    rw [if_pos hrefused]
    simp only [book, hservice]
    rfl
  · rename_i haccepted
    obtain ⟨rfl, hservice⟩ := hservice
    rw [if_neg haccepted]
    have hsessions : (recordRssiEnable connfd s.server).userSessionNodeHead.map bookSession =
        setFlag connfd .rssi 1 (book s).sessions :=
      sessions_recordAction (fun _ => rfl) s.server
    simp only [book, hservice, if_true, hsessions]
    rfl

theorem handleStartCsi_book (connfd : Int) (r : Replies) {s : State}
    (hp : s.dma.pAxidma = true) :
    book (handleStartCsi connfd r s) =
        (book s).act (.startCsi connfd (startExchange r.start)) ∧
      constants (handleStartCsi connfd r s) = constants s := by
  have hservice := startCsiStateExternal_service connfd r.start hp
  obtain ⟨hconstell, hconst⟩ := startCsiStateExternal_frame connfd r.start s.dma
  have hcsi : (book s).csi = csiService s.dma := rfl
  have hsessions : (recordCsiStartEnable connfd 1 s.server).userSessionNodeHead.map bookSession =
      setFlag connfd .csi 1 (book s).sessions :=
    sessions_recordAction (fun _ => rfl) s.server
  simp only [Book.act, Book.startCsi, handleStartCsi, checkConstellWorking_iff, hcsi]
  split
  · exact ⟨rfl, rfl⟩
  · refine ⟨?_, congrArg₂ Prod.mk rfl hconst⟩
    simp only at hservice
    split at hservice
    · rename_i hrefused
      obtain ⟨hret, hservice⟩ := hservice
      rw [if_pos hrefused]
      simp only [book, hservice, hret, hconstell]
      rfl
    · rename_i haccepted
      obtain ⟨hret, hservice⟩ := hservice
      rw [if_neg haccepted]
      simp only [book, hservice, hret, hconstell, if_true, hsessions]
      rfl

theorem handleStopCsi_book (connfd : Int) (r : Replies) {s : State}
    (hp : s.dma.pAxidma = true) :
    book (handleStopCsi connfd r s) = (book s).act (.stopCsi connfd stopExchange) ∧
      constants (handleStopCsi connfd r s) = constants s := by
  have hservice := stopCsiStateExternal_service connfd r.stopCsi hp
  obtain ⟨hconstell, hconst⟩ := stopCsiStateExternal_frame connfd r.stopCsi s.dma
  have hsessions : (recordCsiStartEnable connfd 0 s.server).userSessionNodeHead.map bookSession =
      setFlag connfd .csi 0 (book s).sessions :=
    sessions_recordAction (fun _ => rfl) s.server
  refine ⟨?_, congrArg₂ Prod.mk rfl hconst⟩
  simp only [handleStopCsi, book, hservice, hconstell, hsessions]
  rfl

theorem handleStartConstellation_book (connfd : Int) (r : Replies) {s : State}
    (hp : s.dma.pAxidma = true) :
    book (handleStartConstellation connfd r s) =
        (book s).act (.startConstell connfd (startExchange r.start)) ∧
      constants (handleStartConstellation connfd r s) = constants s := by
  have hservice := startConstellationExternal_service connfd r.start hp
  obtain ⟨hcsi, hconst⟩ := startConstellationExternal_frame connfd r.start s.dma
  have hsessions :
      (recordConstellStartEnable connfd 1 s.server).userSessionNodeHead.map bookSession =
        setFlag connfd .constell 1 (book s).sessions :=
    sessions_recordAction (fun _ => rfl) s.server
  simp only [Book.act, Book.startConstell, handleStartConstellation, checkCsiWorking_iff]
  split
  · exact ⟨rfl, rfl⟩
  · refine ⟨?_, congrArg₂ Prod.mk rfl hconst⟩
    simp only [book, hservice, hcsi, hsessions]
    rfl

theorem handleStopConstellation_book (connfd : Int) (r : Replies) {s : State}
    (hp : s.dma.pAxidma = true) :
    book (handleStopConstellation connfd r s) =
        (book s).act (.stopConstell connfd stopExchange) ∧
      constants (handleStopConstellation connfd r s) = constants s := by
  have hservice := stopConstellationExternal_service connfd r.stopConstellation hp
  obtain ⟨hcsi, hconst⟩ := stopConstellationExternal_frame connfd r.stopConstellation s.dma
  have hsessions :
      (recordConstellStartEnable connfd 0 s.server).userSessionNodeHead.map bookSession =
        setFlag connfd .constell 0 (book s).sessions :=
    sessions_recordAction (fun _ => rfl) s.server
  refine ⟨?_, congrArg₂ Prod.mk rfl hconst⟩
  simp only [handleStopConstellation, book, hservice, hcsi, hsessions]
  rfl

theorem book_addNewUserNodeToList (connfd : Int) (s : State) :
    book { s with server := addNewUserNodeToList connfd s.server } =
      (book s).act (.enter connfd) := by
  simp only [book, Book.act, sessions_addNewUserNodeToList]
  rfl

theorem mem_addNewUserNodeToList (connfd : Int) (g : GServerPara) :
    connfd ∈ sessionConnfds (addNewUserNodeToList connfd g) := by
  simp [sessionConnfds, addNewUserNodeToList]

theorem handleOpenwrtConnected_book {r : Replies} {s s' : State} (hp : s.dma.pAxidma = true)
    (h : handleOpenwrtConnected r s = .ok s') :
    book s' = (actions s ⟨.openwrtConnected, r⟩).foldl Book.act (book s) ∧
      constants s' = constants s := by
  have henable : ∀ t : State, book (enableBrokerCallback t) = book t ∧
      constants (enableBrokerCallback t) = constants t := by
    intro t
    unfold enableBrokerCallback
    split <;> exact ⟨rfl, rfl⟩
  set c := s.server.openwrtConnfd with hc
  set s₁ : State := { s with server := addNewUserNodeToList c s.server } with hs₁
  have henter : book s₁ = (book s).act (.enter c) ∧ constants s₁ = constants s :=
    ⟨book_addNewUserNodeToList c s, rfl⟩
  have hin : c ∈ sessionConnfds s₁.server := mem_addNewUserNodeToList c s.server
  simp only [handleOpenwrtConnected, ← hc, ← hs₁] at h
  simp only [actions, ← hc]
  split at h
  · rename_i hlink
    cases Except.ok.inj h
    simp [hlink]
  · rename_i hlink
    simp only [hlink, if_false]
    obtain ⟨s₂, hdel, h⟩ := bind_eq_ok.mp h
    obtain ⟨hbook, hconst⟩ := henable s₂
    cases Except.ok.inj h
    rw [hbook, hconst]
    split at hdel
    · rename_i heventfd
      obtain ⟨hleave, hsame⟩ := delUser_book (s := s₁) hp hin hdel
      rw [hleave, hsame, henter.1, henter.2]
      simp [heventfd]
      rfl
    · rename_i heventfd
      cases Except.ok.inj hdel
      simp [heventfd, henter.1, henter.2]

/-- Each event that the process survives is a list of book actions. -/
theorem eventLoop_book {s s' : State} {l : Label} (hp : s.dma.pAxidma = true)
    (h : Step s l s') :
    book s' = (actions s l).foldl Book.act (book s) ∧ constants s' = constants s := by
  obtain ⟨hin, h⟩ := h
  rcases l with ⟨event, r⟩
  have handled : Handled s r event s' := handled_of_eventLoop h
  cases handled with
  | acceptNewUser connfd => exact handleAcceptNewUser_book connfd s
  | delDisconnectUser connfd _ hdel => exact delUser_book hp (hin connfd rfl) hdel
  | linkUp | linkUpIgnored | linkDown | linkDownIgnored => exact ⟨rfl, rfl⟩
  | openwrtConnected _ hconnected => exact handleOpenwrtConnected_book hp hconnected
  | openwrtDisconnect => exact ⟨rfl, rfl⟩
  | inquiryRssi connfd => exact handleInquiryRssi_book h
  | rssiReadyAndSend msg broker hsend =>
      obtain ⟨save, rfl⟩ := sendRssiToSave_ok hsend
      exact ⟨rfl, rfl⟩
  | controlRssi connfd ret json broker server hsave hrecord =>
      obtain ⟨save, rfl⟩ := processRssiSaveFile_ok hsave
      have hsame : server.userSessionNodeHead.map bookSession =
          s.server.userSessionNodeHead.map bookSession ∧
          server.userSessionCnt = s.server.userSessionCnt := by
        split at hrecord
        · exact recordRssiSaveEnable_sessions hrecord
        · cases Except.ok.inj hrecord
          exact ⟨rfl, rfl⟩
      constructor
      · simp only [book, hsame.1, hsame.2]
        rfl
      · rfl
  | clearRssiNone => exact ⟨rfl, rfl⟩
  | clearRssi m ms broker hposted hclear =>
      obtain ⟨save, freed, rfl⟩ := clearRssiWriteStatus_ok hclear
      exact ⟨rfl, rfl⟩
  | startCsi connfd => exact handleStartCsi_book connfd r hp
  | stopCsi connfd => exact handleStopCsi_book connfd r hp
  | csiReadyDropped => exact ⟨rfl, rfl⟩
  | csiReady json dma hlength hsend =>
      obtain ⟨save, rfl⟩ := sendCsiToSave_ok hsend
      exact ⟨rfl, rfl⟩
  | startConstellation connfd => exact handleStartConstellation_book connfd r hp
  | stopConstellation connfd => exact handleStopConstellation_book connfd r hp
  | controlSaveIqData connfd ret json dma server hsave hrecord =>
      obtain ⟨head, cnt, allocated, save, rfl, hcount⟩ := processCsiSaveFile_ok hsave
      have hsame := recordCsiSaveEnable_sessions hrecord
      constructor
      · simp only [book, hsame.1, hsame.2]
        rfl
      · simp only [constants, dmaConstants, hcount]
  | clearCsiNone => exact ⟨rfl, rfl⟩
  | clearCsi m ms dma hposted hclear =>
      obtain ⟨head, cnt, save, freed, rfl, hcount⟩ := clearCsiWriteStatus_ok hclear
      constructor
      · rfl
      · simp only [constants, dmaConstants, hcount]
  | rssiWriteThread k broker hwrite =>
      obtain ⟨save, rfl⟩ := rssiWriteThread_ok hwrite
      exact ⟨rfl, rfl⟩
  | csiWriteThread k dma hwrite =>
      obtain ⟨save, rfl⟩ := csiWriteThread_ok hwrite
      exact ⟨rfl, rfl⟩

end GwWeb.BookRefinement
