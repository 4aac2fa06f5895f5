import GwWeb.DmaHandler
import GwWeb.MosquittoBroker
import GwWeb.TransitionRuns

/-!
The event loop of `event_process.c` over the three modules, with the write
threads and the link detection thread as events of their own. Messages that
touch none of the state modelled here are left out. `handleStartCsi` is the branch
for `MSG_START_CSI`, and so on.
-/

namespace GwWeb.EventProcess

open GwWeb.WebCommon
open GwWeb.Server
open GwWeb.MosquittoBroker
open GwWeb.DmaHandler

/-- `g_server`, `g_broker` and `g_dma`. -/
structure State where
  server : GServerPara
  broker : GBrokerPara
  dma : GDmaPara

/-- What the world outside answers while one message is handled. -/
structure Replies where
  transfer : TransferReply
  start : StartReply
  stopCsi : Int
  stopConstellation : Int
  save : SaveReplies
  eventfdWrite : Int

/-- The messages of the event loop, and the steps of the threads. A request
names the connection it came from. -/
inductive Event where
  | acceptNewUser (connfd : Int)
  | delDisconnectUser (connfd : Int)
  | linkUp (connfd : Int)
  | linkDown
  | openwrtConnected
  | openwrtDisconnect
  | inquiryRssi (connfd : Int)
  | rssiReadyAndSend (msg : RssiPriv)
  | controlRssi (connfd : Int) (json : CJson)
  | clearRssiWriteStatus
  | startCsi (connfd : Int)
  | stopCsi (connfd : Int)
  | csiReady (json : List UInt8)
  | startConstellation (connfd : Int)
  | stopConstellation (connfd : Int)
  | controlSaveIqData (connfd : Int) (json : CJson)
  | clearCsiWriteStatus
  | rssiWriteThread (k : Nat)
  | csiWriteThread (k : Nat)

/-- A message, and what the outside answers while it is handled. -/
structure Label where
  event : Event
  replies : Replies

/-- What `del_user` undoes in the broker for a session with these flags. -/
def undoBroker (connfd : Int) (action : RecordAction) (r : Replies) (g : GBrokerPara) :
    Except Fault GBrokerPara :=
  (if action.enableRssiSave ≠ 0 then informStopRssiWriteThread connfd r.save g else .ok g) >>=
    fun g => if action.enableRssi ≠ 0 then closeRssiStateExternal connfd r.transfer g else .ok g

/-- What `del_user` undoes in the DMA module. -/
def undoDma (connfd : Int) (action : RecordAction) (r : Replies) (g : GDmaPara) :
    Except Fault GDmaPara :=
  let g := if action.enableStartCsi ≠ 0 then stopCsiStateExternal connfd r.stopCsi g else g
  (if action.enableCsiSave ≠ 0 then informStopCsiWriteThread connfd r.save g else .ok g) >>=
    fun g =>
      .ok
        (if action.enableStartConstell ≠ 0 then
          stopConstellationExternal connfd r.stopConstellation g
        else g)

def delUser (connfd : Int) (r : Replies) (s : State) : Except Fault State :=
  let (server, tmpNode) := delUserNodeInList connfd s.server
  match tmpNode with
  | none => .ok { s with server }
  | some n => do
      let broker ← undoBroker connfd n.recordAction r s.broker
      let dma ← undoDma connfd n.recordAction r s.dma
      return { server := { server with released := n.addr :: server.released }, broker, dma }

def recordRssiEnable (connfd : Int) (g : GServerPara) : GServerPara :=
  recordAction connfd (fun a => { a with enableRssi := 1 }) g

def recordCsiStartEnable (connfd enable : Int) (g : GServerPara) : GServerPara :=
  recordAction connfd (fun a => { a with enableStartCsi := enable }) g

def recordConstellStartEnable (connfd enable : Int) (g : GServerPara) : GServerPara :=
  recordAction connfd (fun a => { a with enableStartConstell := enable }) g

/-- The flag that `record_rssi_save_enable` and `record_csi_save_enable` read off
a request of the given type, if they get to set one. -/
def saveFlag (type : Int) (root : CJson) : Except Fault (Option Int) := do
  let itemType ← valueint root "type"
  if itemType ≠ type then return none
  else do
    let opCmd ← valueint root "op_cmd"
    return some (if opCmd = 0 then 0 else if opCmd = 1 then 1 else -1)

def recordRssiSaveEnable (connfd : Int) (root : CJson) (g : GServerPara) :
    Except Fault GServerPara := do
  match ← saveFlag typeRssiControl root with
  | none => return g
  | some flag => return recordAction connfd (fun a => { a with enableRssiSave := flag }) g

def recordCsiSaveEnable (connfd : Int) (root : CJson) (g : GServerPara) :
    Except Fault GServerPara := do
  match ← saveFlag typeControlSaveCsi root with
  | none => return g
  | some flag => return recordAction connfd (fun a => { a with enableCsiSave := flag }) g

/-- The loop of `check_constell_working` and `check_csi_working`: the first flag
that is 1, else the last one looked at. -/
def checkWorking (flag : RecordAction → Int) : List UserSessionNode → Int → Int
  | [], state => state
  | n :: ns, _ => if flag n.recordAction = 1 then 1 else checkWorking flag ns (flag n.recordAction)

def checkConstellWorking (g : GServerPara) : Int :=
  checkWorking RecordAction.enableStartConstell g.userSessionNodeHead (-1)

def checkCsiWorking (g : GServerPara) : Int :=
  checkWorking RecordAction.enableStartCsi g.userSessionNodeHead (-1)

/-- Register the broker's callback with the first session. -/
def enableBrokerCallback (s : State) : State :=
  { s with
    broker :=
      if s.broker.enableCallback = 0 then { s.broker with enableCallback := 1 } else s.broker }

/-- Register the DMA callback, once. -/
def enableDmaCallback (s : State) : State :=
  { s with
    dma := if s.dma.enableCallback = 0 then { s.dma with enableCallback := 1 } else s.dma }

/-- `MSG_ACCEPT_NEW_USER`. -/
def handleAcceptNewUser (connfd : Int) (s : State) : State :=
  enableDmaCallback
    (enableBrokerCallback { s with server := addNewUserNodeToList connfd s.server })

/-- `MSG_OPENWRT_CONNECTED`. -/
def handleOpenwrtConnected (r : Replies) (s : State) : Except Fault State :=
  if s.server.openwrtLink = 0 then .ok s
  else
    let s := { s with server := addNewUserNodeToList s.server.openwrtConnfd s.server }
    (if r.eventfdWrite = -1 then delUser s.server.openwrtConnfd r s else .ok s) >>=
      fun s => .ok (enableBrokerCallback s)

/-- `MSG_INQUIRY_RSSI`. -/
def handleInquiryRssi (connfd : Int) (r : Replies) (s : State) : Except Fault State := do
  let (ret, broker) ← openRssiStateExternal connfd r.transfer s.broker
  return { s with
    broker
    server := if ret = 0 then recordRssiEnable connfd s.server else s.server }

/-- `MSG_CONTROL_RSSI`. -/
def handleControlRssi (connfd : Int) (json : CJson) (r : Replies) (s : State) :
    Except Fault State := do
  let (ret, broker) ← processRssiSaveFile connfd json r.save s.broker
  let server ← (if ret = 0 then recordRssiSaveEnable connfd json s.server else .ok s.server)
  return { s with broker, server }

/-- `MSG_CLEAR_RSSI_WRITE_STATUS`, for the message at the head of the queue. -/
def handleClearRssiWriteStatus (s : State) : Except Fault State :=
  match s.broker.save.posted with
  | [] => .ok s
  | m :: ms => do
      let broker ← clearRssiWriteStatus m.node
        { s.broker with save := { s.broker.save with posted := ms } }
      return { s with broker }

/-- `MSG_START_CSI`: refused while the constellation works. -/
def handleStartCsi (connfd : Int) (r : Replies) (s : State) : State :=
  if checkConstellWorking s.server = 1 then s
  else
    let (state, dma) := startCsiStateExternal connfd r.start s.dma
    { s with
      dma
      server := if state = 0 then recordCsiStartEnable connfd 1 s.server else s.server }

/-- `MSG_STOP_CSI`. -/
def handleStopCsi (connfd : Int) (r : Replies) (s : State) : State :=
  { s with
    dma := stopCsiStateExternal connfd r.stopCsi s.dma
    server := recordCsiStartEnable connfd 0 s.server }

/-- `MSG_CSI_READY`: only whole samples are displayed and saved. -/
def handleCsiReady (json : List UInt8) (r : Replies) (s : State) : Except Fault State :=
  if json.length ≠ 1024 then .ok s
  else do
    let dma ← sendCsiToSave r.save (processCSI json s.dma)
    return { s with dma }

/-- `MSG_START_CONSTELLATION`: refused while CSI works. -/
def handleStartConstellation (connfd : Int) (r : Replies) (s : State) : State :=
  if checkCsiWorking s.server = 1 then s
  else
    { s with
      dma := (startConstellationExternal connfd r.start s.dma).2
      server := recordConstellStartEnable connfd 1 s.server }

/-- `MSG_STOP_CONSTELLATION`. -/
def handleStopConstellation (connfd : Int) (r : Replies) (s : State) : State :=
  { s with
    dma := stopConstellationExternal connfd r.stopConstellation s.dma
    server := recordConstellStartEnable connfd 0 s.server }

/-- `MSG_CONTROL_SAVE_IQ_DATA`. -/
def handleControlSaveIqData (connfd : Int) (json : CJson) (r : Replies) (s : State) :
    Except Fault State := do
  let (_, dma) ← processCsiSaveFile connfd json r.save s.dma
  let server ← recordCsiSaveEnable connfd json s.server
  return { s with dma, server }

/-- `MSG_CLEAR_CSI_WRITE_STATUS`. -/
def handleClearCsiWriteStatus (s : State) : Except Fault State :=
  match s.dma.save.posted with
  | [] => .ok s
  | m :: ms => do
      let dma ← clearCsiWriteStatus m.node { s.dma with save := { s.dma.save with posted := ms } }
      return { s with dma }

/-- One event. `MSG_OPENWRT_DISCONNECT` only posts the deletion of the session it
finds, and crashes when it finds none. -/
def eventLoop (s : State) (l : Label) : Except Fault State :=
  match l.event with
  | .acceptNewUser connfd => .ok (handleAcceptNewUser connfd s)
  | .delDisconnectUser connfd => delUser connfd l.replies s
  | .linkUp connfd =>
      .ok
        (if s.server.openwrtLink = 0 ∧ 0 < connfd then
          { s with server := { s.server with openwrtLink := 1, openwrtConnfd := connfd } }
        else s)
  | .linkDown =>
      .ok
        (if s.server.openwrtLink = 1 then { s with server := { s.server with openwrtLink := 0 } }
        else s)
  | .openwrtConnected => handleOpenwrtConnected l.replies s
  | .openwrtDisconnect =>
      match findUserNodeByConnfd s.server.openwrtConnfd s.server with
      | none => .error .nullPointer
      | some _ => .ok s
  | .inquiryRssi connfd => handleInquiryRssi connfd l.replies s
  | .rssiReadyAndSend msg => do
      let broker ← sendRssiToSave msg l.replies.save s.broker
      return { s with broker }
  | .controlRssi connfd json => handleControlRssi connfd json l.replies s
  | .clearRssiWriteStatus => handleClearRssiWriteStatus s
  | .startCsi connfd => .ok (handleStartCsi connfd l.replies s)
  | .stopCsi connfd => .ok (handleStopCsi connfd l.replies s)
  | .csiReady json => handleCsiReady json l.replies s
  | .startConstellation connfd => .ok (handleStartConstellation connfd l.replies s)
  | .stopConstellation connfd => .ok (handleStopConstellation connfd l.replies s)
  | .controlSaveIqData connfd json => handleControlSaveIqData connfd json l.replies s
  | .clearCsiWriteStatus => handleClearCsiWriteStatus s
  | .rssiWriteThread k => do
      let broker ← rssiWriteThread k s.broker
      return { s with broker }
  | .csiWriteThread k => do
      let dma ← csiWriteThread k s.dma
      return { s with dma }

/-- What one event does, with the calls that had to return for it. -/
inductive Handled (s : State) (r : Replies) : Event → State → Prop where
  | acceptNewUser (connfd : Int) :
      Handled s r (.acceptNewUser connfd) (handleAcceptNewUser connfd s)
  | delDisconnectUser (connfd : Int) (s' : State) (h : delUser connfd r s = .ok s') :
      Handled s r (.delDisconnectUser connfd) s'
  | linkUp (connfd : Int) (h : s.server.openwrtLink = 0 ∧ 0 < connfd) :
      Handled s r (.linkUp connfd)
        { s with server := { s.server with openwrtLink := 1, openwrtConnfd := connfd } }
  | linkUpIgnored (connfd : Int) (h : ¬(s.server.openwrtLink = 0 ∧ 0 < connfd)) :
      Handled s r (.linkUp connfd) s
  | linkDown (h : s.server.openwrtLink = 1) :
      Handled s r .linkDown { s with server := { s.server with openwrtLink := 0 } }
  | linkDownIgnored (h : s.server.openwrtLink ≠ 1) : Handled s r .linkDown s
  | openwrtConnected (s' : State) (h : handleOpenwrtConnected r s = .ok s') :
      Handled s r .openwrtConnected s'
  | openwrtDisconnect (n : UserSessionNode)
      (h : findUserNodeByConnfd s.server.openwrtConnfd s.server = some n) :
      Handled s r .openwrtDisconnect s
  | inquiryRssi (connfd ret : Int) (broker : GBrokerPara)
      (h : openRssiStateExternal connfd r.transfer s.broker = .ok (ret, broker)) :
      Handled s r (.inquiryRssi connfd) { s with
        broker
        server := if ret = 0 then recordRssiEnable connfd s.server else s.server }
  | rssiReadyAndSend (msg : RssiPriv) (broker : GBrokerPara)
      (h : sendRssiToSave msg r.save s.broker = .ok broker) :
      Handled s r (.rssiReadyAndSend msg) { s with broker }
  | controlRssi (connfd ret : Int) (json : CJson) (broker : GBrokerPara) (server : GServerPara)
      (h : processRssiSaveFile connfd json r.save s.broker = .ok (ret, broker))
      (hrecord : (if ret = 0 then recordRssiSaveEnable connfd json s.server else .ok s.server) =
        .ok server) :
      Handled s r (.controlRssi connfd json) { s with broker, server }
  | clearRssiNone (h : s.broker.save.posted = []) : Handled s r .clearRssiWriteStatus s
  | clearRssi (m : ClearStatus) (ms : List ClearStatus) (broker : GBrokerPara)
      (hposted : s.broker.save.posted = m :: ms)
      (h : clearRssiWriteStatus m.node
        { s.broker with save := { s.broker.save with posted := ms } } = .ok broker) :
      Handled s r .clearRssiWriteStatus { s with broker }
  | startCsi (connfd : Int) : Handled s r (.startCsi connfd) (handleStartCsi connfd r s)
  | stopCsi (connfd : Int) : Handled s r (.stopCsi connfd) (handleStopCsi connfd r s)
  | csiReadyDropped (json : List UInt8) (h : json.length ≠ 1024) : Handled s r (.csiReady json) s
  | csiReady (json : List UInt8) (dma : GDmaPara) (hlength : json.length = 1024)
      (h : sendCsiToSave r.save (processCSI json s.dma) = .ok dma) :
      Handled s r (.csiReady json) { s with dma }
  | startConstellation (connfd : Int) :
      Handled s r (.startConstellation connfd) (handleStartConstellation connfd r s)
  | stopConstellation (connfd : Int) :
      Handled s r (.stopConstellation connfd) (handleStopConstellation connfd r s)
  | controlSaveIqData (connfd ret : Int) (json : CJson) (dma : GDmaPara) (server : GServerPara)
      (h : processCsiSaveFile connfd json r.save s.dma = .ok (ret, dma))
      (hrecord : recordCsiSaveEnable connfd json s.server = .ok server) :
      Handled s r (.controlSaveIqData connfd json) { s with dma, server }
  | clearCsiNone (h : s.dma.save.posted = []) : Handled s r .clearCsiWriteStatus s
  | clearCsi (m : ClearStatus) (ms : List ClearStatus) (dma : GDmaPara)
      (hposted : s.dma.save.posted = m :: ms)
      (h : clearCsiWriteStatus m.node
        { s.dma with save := { s.dma.save with posted := ms } } = .ok dma) :
      Handled s r .clearCsiWriteStatus { s with dma }
  | rssiWriteThread (k : Nat) (broker : GBrokerPara) (h : rssiWriteThread k s.broker = .ok broker) :
      Handled s r (.rssiWriteThread k) { s with broker }
  | csiWriteThread (k : Nat) (dma : GDmaPara) (h : csiWriteThread k s.dma = .ok dma) :
      Handled s r (.csiWriteThread k) { s with dma }

theorem handled_of_eventLoop {s s' : State} {l : Label} (h : eventLoop s l = .ok s') :
    Handled s l.replies l.event s' := by
  rcases l with ⟨event, r⟩
  cases event with
  | acceptNewUser connfd =>
      obtain rfl := Except.ok.inj h
      exact .acceptNewUser connfd
  | delDisconnectUser connfd => exact .delDisconnectUser connfd s' h
  | linkUp connfd =>
      obtain rfl := Except.ok.inj h
      split
      · rename_i hup
        exact .linkUp connfd hup
      · rename_i hup
        exact .linkUpIgnored connfd hup
  | linkDown =>
      obtain rfl := Except.ok.inj h
      split
      · rename_i hdown
        exact .linkDown hdown
      · rename_i hdown
        exact .linkDownIgnored hdown
  | openwrtConnected => exact .openwrtConnected s' h
  | openwrtDisconnect =>
      simp only [eventLoop] at h
      split at h
      · cases h
      · rename_i n hn
        obtain rfl := Except.ok.inj h
        exact .openwrtDisconnect n hn
  | inquiryRssi connfd =>
      obtain ⟨⟨ret, broker⟩, hopen, h⟩ := bind_eq_ok.mp h
      obtain rfl := Except.ok.inj h
      exact .inquiryRssi connfd ret broker hopen
  | rssiReadyAndSend msg =>
      obtain ⟨broker, hsend, h⟩ := bind_eq_ok.mp h
      obtain rfl := Except.ok.inj h
      exact .rssiReadyAndSend msg broker hsend
  | controlRssi connfd json =>
      obtain ⟨⟨ret, broker⟩, hsave, h⟩ := bind_eq_ok.mp h
      obtain ⟨server, hrecord, h⟩ := bind_eq_ok.mp h
      obtain rfl := Except.ok.inj h
      exact .controlRssi connfd ret json broker server hsave hrecord
  | clearRssiWriteStatus =>
      simp only [eventLoop, handleClearRssiWriteStatus] at h
      split at h
      · rename_i hnone
        obtain rfl := Except.ok.inj h
        exact .clearRssiNone hnone
      · rename_i m ms hposted
        obtain ⟨broker, hclear, h⟩ := bind_eq_ok.mp h
        obtain rfl := Except.ok.inj h
        exact .clearRssi m ms broker hposted hclear
  | startCsi connfd =>
      obtain rfl := Except.ok.inj h
      exact .startCsi connfd
  | stopCsi connfd =>
      obtain rfl := Except.ok.inj h
      exact .stopCsi connfd
  | csiReady json =>
      simp only [eventLoop, handleCsiReady] at h
      split at h
      · rename_i hlength
        obtain rfl := Except.ok.inj h
        exact .csiReadyDropped json hlength
      · rename_i hlength
        obtain ⟨dma, hsend, h⟩ := bind_eq_ok.mp h
        obtain rfl := Except.ok.inj h
        exact .csiReady json dma (not_not.mp hlength) hsend
  | startConstellation connfd =>
      obtain rfl := Except.ok.inj h
      exact .startConstellation connfd
  | stopConstellation connfd =>
      obtain rfl := Except.ok.inj h
      exact .stopConstellation connfd
  | controlSaveIqData connfd json =>
      obtain ⟨⟨ret, dma⟩, hsave, h⟩ := bind_eq_ok.mp h
      obtain ⟨server, hrecord, h⟩ := bind_eq_ok.mp h
      obtain rfl := Except.ok.inj h
      exact .controlSaveIqData connfd ret json dma server hsave hrecord
  | clearCsiWriteStatus =>
      simp only [eventLoop, handleClearCsiWriteStatus] at h
      split at h
      · rename_i hnone
        obtain rfl := Except.ok.inj h
        exact .clearCsiNone hnone
      · rename_i m ms hposted
        obtain ⟨dma, hclear, h⟩ := bind_eq_ok.mp h
        obtain rfl := Except.ok.inj h
        exact .clearCsi m ms dma hposted hclear
  | rssiWriteThread k =>
      obtain ⟨broker, hwrite, h⟩ := bind_eq_ok.mp h
      obtain rfl := Except.ok.inj h
      exact .rssiWriteThread k broker hwrite
  | csiWriteThread k =>
      obtain ⟨dma, hwrite, h⟩ := bind_eq_ok.mp h
      obtain rfl := Except.ok.inj h
      exact .csiWriteThread k dma hwrite

theorem undoBroker_ok {connfd : Int} {action : RecordAction} {r : Replies} {g g' : GBrokerPara}
    (h : undoBroker connfd action r g = .ok g') :
    ∃ save,
      ((action.enableRssiSave = 0 ∨ findNode connfd g = none) ∧ save = g.save ∨
        action.enableRssiSave ≠ 0 ∧
          ∃ u, findNode connfd g = some u ∧ informStop u.addr r.save g.save = .ok save) ∧
      (action.enableRssi = 0 ∧ g' = { g with save } ∨
        action.enableRssi ≠ 0 ∧
          closeRssiStateExternal connfd r.transfer { g with save } = .ok g') := by
  obtain ⟨g₁, hstop, hclose⟩ := bind_eq_ok.mp h
  have hsave : ∃ save, g₁ = { g with save } ∧
      ((action.enableRssiSave = 0 ∨ findNode connfd g = none) ∧ save = g.save ∨
        action.enableRssiSave ≠ 0 ∧
          ∃ u, findNode connfd g = some u ∧ informStop u.addr r.save g.save = .ok save) := by
    split at hstop
    · rename_i hflag
      unfold informStopRssiWriteThread at hstop
      split at hstop
      · rename_i hnone
        exact ⟨g.save, (Except.ok.inj hstop).symm, .inl ⟨.inr hnone, rfl⟩⟩
      · rename_i u hu
        obtain ⟨save, hinform, hstop⟩ := bind_eq_ok.mp hstop
        exact ⟨save, (Except.ok.inj hstop).symm, .inr ⟨hflag, u, hu, hinform⟩⟩
    · rename_i hflag
      exact ⟨g.save, (Except.ok.inj hstop).symm, .inl ⟨.inl (not_not.mp hflag), rfl⟩⟩
  obtain ⟨save, rfl, hsave⟩ := hsave
  refine ⟨save, hsave, ?_⟩
  split at hclose
  · rename_i hflag
    exact .inr ⟨hflag, hclose⟩
  · rename_i hflag
    exact .inl ⟨not_not.mp hflag, (Except.ok.inj hclose).symm⟩

theorem undoDma_ok {connfd : Int} {action : RecordAction} {r : Replies} {g g' : GDmaPara}
    (h : undoDma connfd action r g = .ok g') :
    let g₁ := if action.enableStartCsi ≠ 0 then stopCsiStateExternal connfd r.stopCsi g else g
    ∃ save,
      ((action.enableCsiSave = 0 ∨ findCsiSaveUserNode connfd g₁ = none) ∧ save = g₁.save ∨
        action.enableCsiSave ≠ 0 ∧
          ∃ u, findCsiSaveUserNode connfd g₁ = some u ∧
            informStop u.addr r.save g₁.save = .ok save) ∧
      g' = if action.enableStartConstell ≠ 0 then
          stopConstellationExternal connfd r.stopConstellation { g₁ with save }
        else { g₁ with save } := by
  intro g₁
  obtain ⟨g₂, hstop, hlast⟩ := bind_eq_ok.mp h
  obtain rfl := Except.ok.inj hlast
  change (if action.enableCsiSave ≠ 0 then informStopCsiWriteThread connfd r.save g₁
    else .ok g₁) = .ok g₂ at hstop
  split at hstop
  · rename_i hflag
    unfold informStopCsiWriteThread at hstop
    split at hstop
    · rename_i hnone
      obtain rfl := Except.ok.inj hstop
      exact ⟨g₁.save, .inl ⟨.inr hnone, rfl⟩, rfl⟩
    · rename_i u hu
      obtain ⟨save, hinform, hstop⟩ := bind_eq_ok.mp hstop
      obtain rfl := Except.ok.inj hstop
      exact ⟨save, .inr ⟨hflag, u, hu, hinform⟩, rfl⟩
  · rename_i hflag
    obtain rfl := Except.ok.inj hstop
    exact ⟨g₁.save, .inl ⟨.inl (not_not.mp hflag), rfl⟩, rfl⟩

/-- The session whose message this is. -/
def Event.session? : Event → Option Int
  | .delDisconnectUser connfd => some connfd
  | .inquiryRssi connfd => some connfd
  | .controlRssi connfd _ => some connfd
  | .startCsi connfd => some connfd
  | .stopCsi connfd => some connfd
  | .startConstellation connfd => some connfd
  | .stopConstellation connfd => some connfd
  | .controlSaveIqData connfd _ => some connfd
  | _ => none

def sessionConnfds (g : GServerPara) : List Int := g.userSessionNodeHead.map UserSessionNode.connfd

/-- A session's messages are handled while it is in the session list. Behind
`del_user` they would point to a `g_receive` that was freed. -/
def InSession (s : State) (e : Event) : Prop :=
  ∀ connfd, e.session? = some connfd → connfd ∈ sessionConnfds s.server

/-- One message that the process survives. -/
def Step (s : State) (l : Label) (s' : State) : Prop :=
  InSession s l.event ∧ eventLoop s l = .ok s'

instance (s : State) (e : Event) : Decidable (InSession s e) :=
  decidable_of_iff (∀ connfd ∈ e.session?, connfd ∈ sessionConnfds s.server) Iff.rfl

def survive (s : State) (l : Label) : Option State :=
  if InSession s l.event then (eventLoop s l).toOption else none

theorem step_of_survive (s : State) (l : Label) (s' : State) (h : survive s l = some s') :
    Step s l s' := by
  unfold survive at h
  split at h
  · rename_i hin
    refine ⟨hin, ?_⟩
    cases hloop : eventLoop s l with
    | error fault =>
        rw [hloop] at h
        cases h
    | ok t =>
        rw [hloop] at h
        cases h
        rfl
  · cases h

def surviveGuarded (guard : State → Label → Prop) [∀ s l, Decidable (guard s l)] (s : State)
    (l : Label) : Option State :=
  if guard s l then survive s l else none

theorem step_of_surviveGuarded (guard : State → Label → Prop) [∀ s l, Decidable (guard s l)]
    (s : State) (l : Label) (s' : State) (h : surviveGuarded guard s l = some s') :
    guard s l ∧ Step s l s' := by
  unfold surviveGuarded at h
  split at h
  · rename_i hguard
    exact ⟨hguard, step_of_survive s l s' h⟩
  · cases h

/-- The state when `eventLoop` is entered, behind `CreateServerThread`,
`createBroker` and `create_dma_handler`. -/
structure Started (s : State) : Prop where
  server : s.server = createServerThread
  broker : ∃ openJson closeJson, s.broker = createBroker openJson closeJson
  dma : createDmaHandler true = some s.dma

def startState (openJson closeJson : ControlJson) : State :=
  { server := createServerThread
    broker := createBroker openJson closeJson
    dma := (createDmaHandler true).get rfl }

theorem startState_started (openJson closeJson : ControlJson) :
    Started (startState openJson closeJson) :=
  ⟨rfl, ⟨openJson, closeJson, rfl⟩, rfl⟩

def Replies.success : Replies :=
  { transfer := { ret := 0, statBufLen := 12, stat := some "0" }
    start := { chan := 0, start := 0 }
    stopCsi := 0
    stopConstellation := 0
    save := { fopen := true, tinyQueueCreate := true, tinyQueuePush := fun _ => true }
    eventfdWrite := 8 }

def Replies.failedOpen : Replies :=
  { Replies.success with
    save := { fopen := false, tinyQueueCreate := true, tinyQueuePush := fun _ => true } }

def Replies.failedStart : Replies := { Replies.success with start := { chan := 0, start := -1 } }

end GwWeb.EventProcess
