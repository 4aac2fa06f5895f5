import GwWeb.EpollInput
import GwWeb.PageRefinement

/-!
From the bytes that a page sends to the frames that answer it: the input thread, the
message queue behind it and the event loop as one system.
-/

namespace GwWeb.RequestAnswers

open EdgeTriggered hiding inputs
open OutputMachines
open TransitionRuns
open GwWeb.WebCommon
open GwWeb.EventProcess
open GwWeb.Receive
open GwWeb.ReceiveDeframing
open GwWeb.FrameDispatch
open GwWeb.EpollInput
open GwWeb.CsiDisplay
open GwWeb.DisplayPages
open GwWeb.PageFrames
open GwWeb.PageRefinement

/-- `msg_st`. Through `tmp_data` the handler finds the connection. -/
structure MsgSt where
  msgType : BitVec 32
  tmpData : Nat
  msgJson : Option (List UInt8)

/-- What of it `postMsg` puts into the queue; an answer at once is not queued. -/
def postMsg (post : Nat × Effect) : Option MsgSt :=
  match post.2 with
  | .posted msgType msgJson => some { msgType, tmpData := post.1, msgJson }
  | .answered _ => none

/-- The `case` labels of `eventLoop`, in order. -/
def caseLabels : List MsgEvent :=
  [.acceptNewUser, .delDisconnectUser, .openwrtConnected, .openwrtDisconnect,
    .inquirySystemState, .systemStateException, .timeout, .timeoutTest, .inquiryRegState,
    .inquiryRssi, .rssiReadyAndSend, .controlRssi, .clearRssiWriteStatus, .confChange,
    .startCsi, .stopCsi, .csiReady, .startConstellation, .stopConstellation,
    .constellationReady, .controlSaveIqData, .clearCsiWriteStatus, .openDistanceApp,
    .closeDistanceApp, .openDac, .closeDac, .clearLog, .resetSystem, .inquiryStatistics,
    .ipSetting, .inquiryRfInfo, .rfInfoReady, .rfFreqSetting, .openTxPower, .closeTxPower,
    .openRxGain, .closeRxGain]

/-- The case of the `switch`; without one the message is dropped. -/
def caseFor (msgType : BitVec 32) : Option MsgEvent :=
  caseLabels.find? fun e => e.code = msgType

/-- What the case does with a message about a connection, `json` being what
`cJSON_Parse` makes of the text. The other messages of the input thread are about the
system state, the registers, statistics and RF, and are not answered by a state. -/
def caseBody (connfd : Int) (json : CJson) (r : Replies) : MsgEvent → Option PageLabel
  | .acceptNewUser => some (.event ⟨.acceptNewUser connfd, r⟩)
  | .delDisconnectUser => some (.event ⟨.delDisconnectUser connfd, r⟩)
  | .inquiryRssi => some (.event ⟨.inquiryRssi connfd, r⟩)
  | .controlRssi => some (.event ⟨.controlRssi connfd json, r⟩)
  | .startCsi => some (.event ⟨.startCsi connfd, r⟩)
  | .stopCsi => some (.event ⟨.stopCsi connfd, r⟩)
  | .startConstellation => some (.event ⟨.startConstellation connfd, r⟩)
  | .stopConstellation => some (.event ⟨.stopConstellation connfd, r⟩)
  | .controlSaveIqData => some (.event ⟨.controlSaveIqData connfd json, r⟩)
  | .openDistanceApp => some (.command connfd .openDistanceApp)
  | .closeDistanceApp => some (.command connfd .closeDistanceApp)
  | .openDac => some (.command connfd .openDac)
  | .closeDac => some (.command connfd .closeDac)
  | .clearLog => some (.command connfd .clearLog)
  | .resetSystem => some (.command connfd .resetSystem)
  | .ipSetting => some (.command connfd .ipSetting)
  | .openTxPower => some (.command connfd .openTxPower)
  | .closeTxPower => some (.command connfd .closeTxPower)
  | .openRxGain => some (.command connfd .openRxGain)
  | .closeRxGain => some (.command connfd .closeRxGain)
  | _ => none

/-- What a message with this number makes the loop do. -/
def pageLabel (connfd : Int) (json : CJson) (r : Replies) (msgType : BitVec 32) :
    Option PageLabel :=
  (caseFor msgType).bind (caseBody connfd json r)

/-- The messages of the loop that no request is behind. -/
def FromElsewhere : PageLabel → Prop
  | .event l =>
      match l.event with
      | .acceptNewUser _ | .inquiryRssi _ | .controlRssi _ _ | .startCsi _ | .stopCsi _
      | .startConstellation _ | .stopConstellation _ | .controlSaveIqData _ _ => False
      | _ => True
  | .constellationReady _ => True
  | .command _ _ => False

/-- The frame that carries a request. -/
def commandFrame : Command → FrameType
  | .openDistanceApp => .openDistanceApp
  | .closeDistanceApp => .closeDistanceApp
  | .openDac => .openDac
  | .closeDac => .closeDac
  | .clearLog => .clearLog
  | .resetSystem => .reset
  | .ipSetting => .ipSetting
  | .openTxPower => .openTxPower
  | .closeTxPower => .closeTxPower
  | .openRxGain => .openRxGain
  | .closeRxGain => .closeRxGain

/-- The type of the frame that asks for it. -/
def frameType : DisplayPages.Request Other → FrameType
  | .startCsi => .startCsi
  | .stopCsi => .stopCsi
  | .startConstell => .startConstellation
  | .stopConstell => .stopConstellation
  | .other .controlRssi => .rssiControl
  | .other .saveCsi => .controlSaveCsi
  | .other (.command command) => commandFrame command

/-- The message that carries it on. -/
def commandEvent : Command → MsgEvent
  | .openDistanceApp => .openDistanceApp
  | .closeDistanceApp => .closeDistanceApp
  | .openDac => .openDac
  | .closeDac => .closeDac
  | .clearLog => .clearLog
  | .resetSystem => .resetSystem
  | .ipSetting => .ipSetting
  | .openTxPower => .openTxPower
  | .closeTxPower => .closeTxPower
  | .openRxGain => .openRxGain
  | .closeRxGain => .closeRxGain

/-- The message that the frame is posted as. -/
def msgEvent : DisplayPages.Request Other → MsgEvent
  | .startCsi => .startCsi
  | .stopCsi => .stopCsi
  | .startConstell => .startConstellation
  | .stopConstell => .stopConstellation
  | .other .controlRssi => .controlRssi
  | .other .saveCsi => .controlSaveIqData
  | .other (.command command) => commandEvent command

/-- The requests that the loop answers, or acts on. -/
def answerable : List (DisplayPages.Request Other) :=
  [.startCsi, .stopCsi, .startConstell, .stopConstell, .other .controlRssi, .other .saveCsi] ++
    [Command.openDistanceApp, .closeDistanceApp, .openDac, .closeDac, .clearLog, .resetSystem,
      .ipSetting, .openTxPower, .closeTxPower, .openRxGain, .closeRxGain].map
      fun command => .other (.command command)

/-- What a frame asks for, if it asks for an answer. -/
def requestOf (type : BitVec 32) : Option (DisplayPages.Request Other) :=
  answerable.find? fun r => (frameType r).code = type

/-- What a message with this number asks for. -/
def requestOfMsg (msgType : BitVec 32) : Option (DisplayPages.Request Other) :=
  answerable.find? fun r => (msgEvent r).code = msgType

/-- What the effect of a frame asks for. -/
def askedBy : Effect → Option (DisplayPages.Request Other)
  | .posted msgType _ => requestOfMsg msgType
  | .answered _ => none

section Tables

theorem requestOf_none {type : BitVec 32} (h : funFor type = none) : requestOf type = none := by
  have hrows : ∀ r ∈ answerable, frameType r ∈ msgFlow.map Prod.fst := by decide
  rw [requestOf, List.find?_eq_none]
  intro r hr htype
  have hrow := find_row_isSome (hrows r hr)
  simp only [decide_eq_true_eq] at htype
  rw [htype, ← funFor, h] at hrow
  cases hrow

theorem rows_agree : ∀ row ∈ idxMsg, ∀ r ∈ answerable,
    (frameType r).code = row.1.code ↔ (msgEvent r).code = row.2 := by decide +kernel

theorem requestOf_row {type msgType : BitVec 32} (h : idxMsgFor type = some msgType) :
    requestOf type = requestOfMsg msgType := by
  obtain ⟨row, hrow, rfl⟩ := mem_of_find_row h
  apply List.find?_congr
  intro r hr
  exact decide_eq_decide.mpr (rows_agree _ hrow r hr)

theorem requestOf_fast {type : BitVec 32} (h : funFor type = some .fastResponseFun) :
    requestOf type = none := by
  have hfast : ∀ row ∈ msgFlow, row.2 = .fastResponseFun →
      ∀ r ∈ answerable, (frameType r).code ≠ row.1.code := by decide +kernel
  obtain ⟨row, hrow, rfl⟩ := mem_of_find_row h
  rw [requestOf, List.find?_eq_none]
  intro r hr htype
  exact hfast _ hrow rfl r hr (of_decide_eq_true htype)

theorem askedBy_callEffects (call : FrameCall) :
    (callEffects call).filterMap askedBy = (requestOf call.type).toList := by
  cases hfun : funFor call.type with
  | none =>
      rw [callEffects, hfun, requestOf_none hfun]
      rfl
  | some f =>
      obtain ⟨msgType, hmsg⟩ := Option.isSome_iff_exists.mp (idxMsgFor_isSome hfun)
      rw [callEffects, hfun, hmsg]
      cases f with
      | processNoJsonFun | processJsonFun =>
          rw [requestOf_row hmsg]
          show List.filterMap askedBy [_] = _
          rw [List.filterMap_cons, askedBy]
          cases requestOfMsg msgType <;> rfl
      | fastResponseFun =>
          rw [requestOf_fast hfun]
          rfl

theorem askedBy_effects (requests : List EpollInput.Request) :
    (effects requests).filterMap askedBy = requests.filterMap fun r => requestOf r.1.type := by
  induction requests with
  | nil => rfl
  | cons r requests ih =>
      have hfirst : (callEffects r.1.call).filterMap askedBy = (requestOf r.1.type).toList :=
        askedBy_callEffects r.1.call
      rw [effects, List.flatMap_cons, List.filterMap_append, hfirst, ← effects, ih,
        List.filterMap_cons]
      cases requestOf r.1.type <;> rfl

theorem requestOfMsg_none {connfd : Int} {json : CJson} {r : Replies} {msgType : BitVec 32}
    (h : pageLabel connfd json r msgType = none) : requestOfMsg msgType = none := by
  have hcases : ∀ q ∈ answerable, caseFor (msgEvent q).code = some (msgEvent q) := by
    decide +kernel
  rw [requestOfMsg, List.find?_eq_none]
  intro q hq hcode
  rw [← of_decide_eq_true hcode, pageLabel, hcases q hq, Option.bind_some] at h
  cases q with
  | startCsi | stopCsi | startConstell | stopConstell => cases h
  | other o =>
      cases o with
      | controlRssi | saveCsi => cases h
      | command command => cases command <;> cases h

end Tables

/-- What a message to the service asks for, and from where. -/
def asked? {F : Type*} : PageInput F → Option (Int × DisplayPages.Request Other)
  | .ask connfd r _ => some (connfd, r)
  | _ => none

section Inputs

variable {F : Type*} {ops : FloatOps F} {fftwfExecute : (Fin 256 → F × F) → Fin 256 → F × F}
  {s s' : PageState F} {l : PageLabel}

theorem inputs_elsewhere (h : FromElsewhere l) :
    (inputs ops fftwfExecute s l).filterMap asked? = [] := by
  cases l with
  | event l =>
      rcases l with ⟨event, r⟩
      cases event with
      | openwrtConnected =>
          simp only [inputs, inputsOfEvent]
          split
          · rfl
          · split <;> rfl
      | csiReady json =>
          simp only [inputs, inputsOfEvent]
          split <;> rfl
      | acceptNewUser _ | inquiryRssi _ | controlRssi _ _ | startCsi _ | stopCsi _
      | startConstellation _ | stopConstellation _ | controlSaveIqData _ _ => cases h
      | _ => rfl
  | constellationReady buf =>
      simp only [inputs]
      split <;> rfl
  | command connfd command => cases h

theorem inputs_case {connfd : Int} {json : CJson} {r : Replies} {msgType : BitVec 32}
    (h : pageLabel connfd json r msgType = some l) (hstep : PageStep ops fftwfExecute s l s') :
    (inputs ops fftwfExecute s l).filterMap asked? =
      (requestOfMsg msgType).toList.map (connfd, ·) := by
  obtain ⟨e, he, hbody⟩ := Option.bind_eq_some_iff.mp h
  obtain rfl : e.code = msgType := by simpa using List.find?_some he
  cases e with
  | controlRssi =>
      obtain rfl := Option.some.inj hbody
      have hhandled := handled_of_eventLoop (step_of_handle hstep).2
      generalize s'.loop = loop at hhandled
      cases hhandled with
      | controlRssi _ ret _ broker server hsave hrecord =>
          simp only [inputs, inputsOfEvent, hsave]
          rfl
  | acceptNewUser | delDisconnectUser | inquiryRssi | startCsi | stopCsi | startConstellation
  | stopConstellation | controlSaveIqData | openDistanceApp | closeDistanceApp | openDac
  | closeDac | clearLog | resetSystem | ipSetting | openTxPower | closeTxPower | openRxGain
  | closeRxGain =>
      obtain rfl := Option.some.inj hbody
      rfl
  | _ => cases hbody

theorem page_step {p : Pages Int} (h : ShowsPages s p) (hstep : PageStep ops fftwfExecute s l s')
    (connfd : Int) :
    ShowsPages s' ((inputs ops fftwfExecute s l).foldl Pages.next p) ∧
      toConnection connfd (sent ops fftwfExecute s l) =
        ((pageService F connfd).outputs p (inputs ops fftwfExecute s l)).map frameOf := by
  have hfollows := follows_service connfd s l s' p h trivial hstep
  rwa [Machine.watch_outputs, List.filterMap_eq_map'] at hfollows

end Inputs

/-- `taken` messages of the input thread have been handled. `sent` is what the loop has
handed to `assemble_frame_and_send`, in order. -/
structure Service (F : Type*) where
  input : Epoll
  taken : Nat
  page : PageState F
  sent : List (Int × Frame F)

namespace Service

variable {F : Type*} (s : Service F)

/-- All messages that the input thread has posted. -/
def messages : List MsgSt := s.input.posted.filterMap postMsg

/-- The queue, as far as the input thread has filled it. -/
def queue : List MsgSt := s.messages.drop s.taken

/-- The connection of a message. -/
def connfd (k : Nat) : Int := (s.input.socket k).handler.connfd

/-- A message as a request of its connection. -/
def ask (m : MsgSt) : Option (Nat × DisplayPages.Request Other) :=
  (requestOfMsg m.msgType).map (m.tmpData, ·)

/-- The requests that have been handled, and those that wait in the queue. -/
def answered : List (Nat × DisplayPages.Request Other) := (s.messages.take s.taken).filterMap ask

/-- The requests that are in the queue. -/
def waiting : List (Nat × DisplayPages.Request Other) := s.queue.filterMap ask

end Service

/-- A step of the input thread, the next message, or a message of another thread. -/
inductive ServiceLabel where
  | input (l : EdgeTriggered.Label Nat UInt8)
  | take (json : CJson) (replies : Replies)
  | other (l : PageLabel)

section System

variable {F : Type*} (ops : FloatOps F) (fftwfExecute : (Fin 256 → F × F) → Fin 256 → F × F)
  (myNtohl : (Nat → UInt8) → BitVec 32)

/-- The two threads, and what else comes to the loop. The queue hands out the messages of
the input thread in the order in which they were posted, with others in between. -/
inductive ServiceStep : Service F → ServiceLabel → Service F → Prop where
  | input {s : Service F} {l : EdgeTriggered.Label Nat UInt8} {input : Epoll} :
      EdgeTriggered.Step (processRecvEvent myNtohl) MAX_EVENTS s.input l input →
      ServiceStep s (.input l) { s with input }
  | take {s : Service F} {m : MsgSt} {ms : List MsgSt} {json : CJson} {r : Replies}
      {l : PageLabel} {page : PageState F} :
      s.queue = m :: ms → pageLabel (s.connfd m.tmpData) json r m.msgType = some l →
      PageStep ops fftwfExecute s.page l page →
      ServiceStep s (.take json r)
        { s with
          taken := s.taken + 1
          page
          sent := s.sent ++ sent ops fftwfExecute s.page l }
  | pass {s : Service F} {m : MsgSt} {ms : List MsgSt} {json : CJson} {r : Replies} :
      s.queue = m :: ms → pageLabel (s.connfd m.tmpData) json r m.msgType = none →
      ServiceStep s (.take json r) { s with taken := s.taken + 1 }
  | other {s : Service F} {l : PageLabel} {page : PageState F} :
      FromElsewhere l → PageStep ops fftwfExecute s.page l page →
      ServiceStep s (.other l)
        { s with page, sent := s.sent ++ sent ops fftwfExecute s.page l }

/-- The input thread is kept to what `EpollInput` asks of it. -/
def ServiceGuard (s : Service F) : ServiceLabel → Prop
  | .input l => EdgeTriggered.Guard Sendable Fits s.input l
  | .take _ _ | .other _ => True

end System

section Posts

/-- What is about one connection. -/
def ofConnection {α : Type} (k : Nat) (xs : List (Nat × α)) : List α :=
  xs.filterMap fun x => if x.1 = k then some x.2 else none

theorem ofConnection_append {α : Type} (k : Nat) (xs ys : List (Nat × α)) :
    ofConnection k (xs ++ ys) = ofConnection k xs ++ ofConnection k ys := List.filterMap_append

theorem ofConnection_ask (k : Nat) (posts : List (Nat × Effect)) :
    ofConnection k ((posts.filterMap postMsg).filterMap Service.ask) =
      ((posts.filter fun p => p.1 = k).map Prod.snd).filterMap askedBy := by
  rw [ofConnection, List.filterMap_filterMap, List.filterMap_filterMap, List.filterMap_map,
    List.filterMap_filter]
  congr 1
  funext p
  rcases p with ⟨j, e⟩
  cases e with
  | answered type =>
      show none = _
      split <;> rfl
  | posted msgType msgJson =>
      show ((requestOfMsg msgType).map (j, ·)).bind _ = _
      cases hask : requestOfMsg msgType <;> simp [askedBy, hask]

end Posts

section Invariant

variable {F : Type*} {ops : FloatOps F} {fftwfExecute : (Fin 256 → F × F) → Fin 256 → F × F}
  {myNtohl : (Nat → UInt8) → BitVec 32} {s₀ s s' : Service F} {is : List (PageInput F)}

/-- The frames sent are those of the service, which has been asked what the messages
handled ask for. -/
structure Serves (s₀ s : Service F) (is : List (PageInput F)) : Prop where
  pages : ShowsPages s.page (is.foldl Pages.next Pages.closed)
  frames : ∀ connfd, toConnection connfd s.sent =
    ((pageService F connfd).outputs Pages.closed is).map frameOf
  asked : is.filterMap asked? = s.answered.map fun x => (s₀.connfd x.1, x.2)

/-- The messages of the input thread are the requests of the streams, the first of them handled. -/
structure Kept (myNtohl : (Nat → UInt8) → BitVec 32) (s₀ s : Service F) : Prop where
  input : Inv (processRecvEvent myNtohl) (Received fun k => (s₀.input.socket k).handler) Sendable
    s.input
  connfd : ∀ k, s.connfd k = s₀.connfd k
  taken : s.taken ≤ s.messages.length
  serves : ∃ is, Serves s₀ s is

/-- The threads have been created, and nobody has connected yet. -/
structure Begun (s : Service F) : Prop where
  input : EpollInput.Started s.input
  page : EventProcess.Started s.page.loop
  taken : s.taken = 0
  sent : s.sent = []

theorem Begun.kept (h : Begun s) : Kept myNtohl s s where
  input := h.input.inv
  connfd _ := rfl
  taken := by simp [h.taken]
  serves := by
    refine ⟨[], shows_started h.page, ?_, ?_⟩
    · intro connfd
      rw [h.sent]
      rfl
    · rw [Service.answered, h.taken]
      rfl

theorem Serves.page_step (h : Serves s₀ s is) {l : PageLabel}
    (hstep : PageStep ops fftwfExecute s.page l s'.page)
    (hsent : s'.sent = s.sent ++ sent ops fftwfExecute s.page l)
    (hasked : s'.answered.map (fun x => (s₀.connfd x.1, x.2)) =
      (s.answered.map fun x => (s₀.connfd x.1, x.2)) ++
        (inputs ops fftwfExecute s.page l).filterMap asked?) :
    Serves s₀ s' (is ++ inputs ops fftwfExecute s.page l) where
  pages := by
    rw [List.foldl_append]
    exact (RequestAnswers.page_step h.pages hstep 0).1
  frames := by
    intro connfd
    have hframes := (RequestAnswers.page_step h.pages hstep connfd).2
    rw [hsent, toConnection, List.filterMap_append, ← toConnection, ← toConnection, h.frames,
      hframes, Machine.outputs_append, List.map_append]
    rfl
  asked := by rw [List.filterMap_append, h.asked, hasked]

theorem Service.answered_take {m : MsgSt} {ms : List MsgSt} (h : s.queue = m :: ms)
    (hinput : s'.input = s.input) (htaken : s'.taken = s.taken + 1) :
    s'.answered = s.answered ++ (Service.ask m).toList := by
  have hnext : s.messages[s.taken]? = some m := by
    rw [← List.head?_drop, ← Service.queue, h, List.head?_cons]
  have hmessages : s'.messages = s.messages := by rw [Service.messages, hinput, Service.messages]
  rw [Service.answered, hmessages, htaken, List.take_add_one, hnext, List.filterMap_append,
    Service.answered]
  show _ ++ [m].filterMap Service.ask = _
  rw [List.filterMap_cons]
  cases Service.ask m <;> rfl

theorem Service.taken_lt (s : Service F) {m : MsgSt} {ms : List MsgSt} (h : s.queue = m :: ms) :
    s.taken + 1 ≤ s.messages.length := by
  have hlength := congrArg List.length h
  rw [Service.queue, List.length_drop, List.length_cons] at hlength
  omega

/-- What the input thread posts comes behind what has been handled. -/
theorem Service.answered_input (h : s.taken ≤ s.messages.length) {input : Epoll}
    (hposted : s.input.posted <+: input.posted) :
    s.taken ≤ { s with input }.messages.length ∧ { s with input }.answered = s.answered := by
  obtain ⟨later, hlater⟩ := hposted
  have hmessages : { s with input }.messages = s.messages ++ later.filterMap postMsg := by
    rw [Service.messages, Service.messages, ← List.filterMap_append, hlater]
  constructor
  · rw [hmessages, List.length_append]
    omega
  · rw [Service.answered, Service.answered, hmessages, List.take_append_of_le_length h]

theorem Kept.step (hntohl : ReadsBigEndian myNtohl) {l : ServiceLabel} (h : Kept myNtohl s₀ s)
    (hguard : ServiceGuard s l) (hstep : ServiceStep ops fftwfExecute myNtohl s l s') :
    Kept myNtohl s₀ s' := by
  obtain ⟨hinput, hconnfd, htaken, is, hserves⟩ := h
  cases hstep with
  | input hstep =>
      obtain ⟨hstill, hanswered⟩ := Service.answered_input htaken hstep.posted_prefix
      refine ⟨hinput.step (processRecvEvent_sound hntohl _) hguard hstep, ?_, hstill, is,
        hserves.pages, hserves.frames, ?_⟩
      · refine hstep.handlers (P := fun k g => g.connfd = s₀.connfd k) ?_ ?_ hconnfd
        · exact fun _ _ hg => hg
        · rintro j g input g' out hg ⟨fuel, calls, hreceive, -⟩
          exact (receive_connfd hreceive).trans hg
      · rw [hanswered]
        exact hserves.asked
  | take hqueue hlabel hstep =>
      refine ⟨hinput, hconnfd, s.taken_lt hqueue, _, hserves.page_step hstep rfl ?_⟩
      rw [inputs_case hlabel hstep, Service.answered_take hqueue, List.map_append, hconnfd,
        Service.ask]
      · cases requestOfMsg _ <;> rfl
      · rfl
      · rfl
  | pass hqueue hlabel =>
      refine ⟨hinput, hconnfd, s.taken_lt hqueue, is, hserves.pages, hserves.frames, ?_⟩
      rw [Service.answered_take hqueue, Service.ask, requestOfMsg_none hlabel, hserves.asked,
        Option.map_none, Option.toList_none, List.append_nil]
      · rfl
      · rfl
  | other helsewhere hstep =>
      refine ⟨hinput, hconnfd, htaken, _, hserves.page_step hstep rfl ?_⟩
      rw [inputs_elsewhere helsewhere, List.append_nil]
      rfl

theorem askedBy_opening (entry : Option Entry) :
    (entry.elim [] (processRecvEvent myNtohl).opening).filterMap askedBy = [] := by
  have haccept : requestOfMsg MsgEvent.acceptNewUser.code = none := by decide +kernel
  rcases entry with _ | _ | _
  · rfl
  · exact List.filterMap_cons_none haccept
  · rfl

theorem askedBy_closing (n : Nat) :
    (List.replicate n (processRecvEvent myNtohl).closing).filterMap askedBy = [] := by
  have hdel : requestOfMsg MsgEvent.delDisconnectUser.code = none := by decide +kernel
  rw [List.filterMap_eq_nil_iff]
  intro e he
  rw [List.eq_of_mem_replicate he]
  exact hdel

theorem Kept.requests (h : Kept myNtohl s₀ s) (k : Nat) :
    ∃ requests tail, Cut requests tail (s.input.socket k).taken ∧
      (requests.filterMap fun r => requestOf r.1.type) =
        ofConnection k s.answered ++ ofConnection k s.waiting := by
  obtain ⟨out, n, ha⟩ := h.input.account k
  obtain ⟨requests, tail, hcut⟩ := sendable_left (h.input.arrived k)
  refine ⟨requests, tail, hcut, ?_⟩
  have hall : s.answered ++ s.waiting = s.messages.filterMap Service.ask := by
    rw [Service.answered, Service.waiting, Service.queue, ← List.filterMap_append,
      List.take_append_drop]
  have hposts : (s.input.postsOf k).filterMap askedBy =
      requests.filterMap fun r => requestOf r.1.type := by
    rw [ha.posts, ha.holds.out, hcut.effects, List.filterMap_append, List.filterMap_append,
      askedBy_opening, askedBy_closing, askedBy_effects, List.nil_append, List.append_nil]
  rw [← hposts, ← ofConnection_append, hall, Service.messages, ofConnection_ask]
  rfl

/-- The frames that all connections are sent are those of the service to the pages, for
what the connections have sent: of each connection's stream, the requests whose last byte
has been read, in order and once each, save those that are still in the queue. When the
input thread is at rest, no request is unread. -/
theorem streams_answered {trs : List (Transition (Service F) ServiceLabel)}
    (hntohl : ReadsBigEndian myNtohl) (hs : Begun s₀)
    (hrun : Run (ServiceStep ops fftwfExecute myNtohl) s₀ trs s)
    (hguard : ∀ tr ∈ trs, ServiceGuard tr.before tr.label) :
    ∃ is : List (PageInput F),
      (∀ connfd, toConnection connfd s.sent =
        ((pageService F connfd).outputs Pages.closed is).map frameOf) ∧
      (is.filterMap asked? = s.answered.map fun x => (s₀.connfd x.1, x.2)) ∧
      ∀ k, (∃ requests tail, Cut requests tail (s.input.socket k).taken ∧
          (requests.filterMap fun r => requestOf r.1.type) =
            ofConnection k s.answered ++ ofConnection k s.waiting) ∧
        (AtRest s.input → k ∈ s.input.registered → (s.input.socket k).unread = []) := by
  have hkept : Kept myNtohl s₀ s :=
    (hrun.invariant (fun _ _ _ ha hl hstep => ha.step hntohl hl hstep) hs.kept hguard).2
  obtain ⟨is, hserves⟩ := hkept.serves
  refine ⟨is, hserves.frames, hserves.asked, fun k => ⟨hkept.requests k, ?_⟩⟩
  intro hrest hk
  obtain ⟨out, n, -, -, hunread, -⟩ := hkept.input.at_rest hrest hk
  exact hunread

end Invariant

noncomputable def serviceStart : Service ℝ :=
  { input := EpollInput.startState, taken := 0, page := pagesStart, sent := [] }

/-- A request for the constellation. -/
def constellRequest : EpollInput.Request :=
  ⟨{ type := FrameType.startConstellation.code, payload := [],
     length_int := Nat.le_of_ble_eq_true rfl },
    Nat.le_of_ble_eq_true rfl⟩

theorem constellRequest_runs : ∃ trs s,
    Run (fun a l b => ServiceStep realOps dft readNetworkWord a l b ∧ ServiceGuard a l) serviceStart
      trs s ∧
    toConnection 7 s.sent = [.cmdState 0 "start constell success"] := by
  have hsendable : Sendable constellRequest.1.frame :=
    ⟨[constellRequest], [], ⟨constellRequest, by decide, by decide⟩, by decide⟩
  have hfits : Fits constellRequest.1.frame := by
    change ((8 : Nat) : Int) ≤ 38960
    decide
  apply Exists.intro
  apply Exists.intro
  constructor
  · exact
      .cons (e := ServiceLabel.input (Label.arrive 0 constellRequest.1.frame))
        ⟨.input (.arrive rfl), hsendable⟩ <|
      .cons (e := ServiceLabel.input (Label.wait [.opener .accepted]))
        ⟨.input (.wait (n := 0) rfl (by simp) (by decide) rfl), trivial⟩ <|
      .cons (e := ServiceLabel.input (Label.enroll 0)) ⟨.input (.enroll rfl rfl), trivial⟩ <|
      .cons (e := ServiceLabel.input Label.finish) ⟨.input (.finish rfl), trivial⟩ <|
      .cons (e := ServiceLabel.input (Label.wait [.input 0]))
        ⟨.input (.wait (n := 1) rfl (by simp) (by decide) rfl), trivial⟩ <|
      .cons (e := ServiceLabel.input Label.start) ⟨.input (.start rfl), trivial⟩ <|
      .cons (e := ServiceLabel.input (Label.recv (.data constellRequest.1.frame (by decide))))
        ⟨.input (.recv rfl rfl ⟨[], rfl⟩ ⟨2, _, rfl, rfl⟩), hfits⟩ <|
      .cons (e := ServiceLabel.take (fun _ => none) Replies.success)
        ⟨.take rfl rfl (show handle _ _ _ _ = _ from rfl), trivial⟩ <|
      .cons (e := ServiceLabel.take (fun _ => none) Replies.success)
        ⟨.take rfl rfl (show handle _ _ _ _ = _ from rfl), trivial⟩ <|
      .nil _
  · rfl

theorem streams_answered_constell : ∃ trs s,
    Run (ServiceStep realOps dft readNetworkWord) serviceStart trs s ∧
    toConnection 7 s.sent = [.cmdState 0 "start constell success"] ∧
    ∃ is : List (PageInput ℝ),
      (∀ connfd, toConnection connfd s.sent =
        ((pageService ℝ connfd).outputs Pages.closed is).map frameOf) ∧
      (is.filterMap asked? = s.answered.map fun x => (serviceStart.connfd x.1, x.2)) ∧
      ∀ k, (∃ requests tail, Cut requests tail (s.input.socket k).taken ∧
          (requests.filterMap fun r => requestOf r.1.type) =
            ofConnection k s.answered ++ ofConnection k s.waiting) ∧
        (AtRest s.input → k ∈ s.input.registered → (s.input.socket k).unread = []) := by
  obtain ⟨trs, s, hruns, hsent⟩ := constellRequest_runs
  obtain ⟨hrun, hguard⟩ := Run.of_guarded hruns
  have hbegun : Begun serviceStart :=
    ⟨startState_started, EventProcess.startState_started _ _, rfl, rfl⟩
  exact ⟨trs, s, hrun, hsent, streams_answered readNetworkWord_readsBigEndian hbegun hrun hguard⟩

end GwWeb.RequestAnswers
