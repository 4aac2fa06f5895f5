import GwWeb.BookPages
import GwWeb.ConstellationDecoding
import GwWeb.CsiDisplay
import GwWeb.UnlinkRelease

/-!
The frames of `TYPE_CMD_STATE_RESPONSE`, of CSI and of the constellation that the event
loop hands to `assemble_frame_and_send`, and for which connection.
-/

namespace GwWeb.PageFrames

open OutputMachines
open TransitionRuns
open GwWeb.WebCommon
open GwWeb.Server
open GwWeb.MosquittoBroker
open GwWeb.DmaHandler
open GwWeb.EventProcess
open GwWeb.UnlinkRelease
open GwWeb.CsiDisplay
open GwWeb.ConstellationDecoding
open GwWeb.DisplayPages

/-- The strings of `record_str_t` that are sent. -/
inductive Record where
  | constrolRssiSucc
  | startCsiSucc
  | startCsiMutex
  | stopCsiSucc
  | startConstellSucc
  | startConstellMutex
  | csiSaveSucc
  | openDistanceSucc
  | closeDistanceSucc
  | openDacSucc
  | closeDacSucc
  | clearLogSucc
  | resetSysSucc
  | ipSettingSucc
  | openTxpowerSucc
  | closeTxpowerSucc
  | openRxgainSucc
  | closeRxgainSucc
  deriving DecidableEq

/-- `init_record_str`. -/
def initRecordStr : Record → String
  | .constrolRssiSucc => "open rssi success"
  | .startCsiSucc => "start csi success"
  | .startCsiMutex => "start csi confict with constelltion"
  | .stopCsiSucc => "stop csi success"
  | .startConstellSucc => "start constell success"
  | .startConstellMutex => "start constelltion confict with csi"
  | .csiSaveSucc => "save csi success"
  | .openDistanceSucc => "open distance success"
  | .closeDistanceSucc => "close distance success"
  | .openDacSucc => "open dac success"
  | .closeDacSucc => "close dac success"
  | .clearLogSucc => "clear log success"
  | .resetSysSucc => "reset system success"
  | .ipSettingSucc => "ip setting success"
  | .openTxpowerSucc => "open txpower success"
  | .closeTxpowerSucc => "close txpower success"
  | .openRxgainSucc => "open rxgain success"
  | .closeRxgainSucc => "close rxgain success"

/-- The requests that end in `CMD_OK` whatever comes of them. -/
inductive Command where
  | openDistanceApp
  | closeDistanceApp
  | openDac
  | closeDac
  | clearLog
  | resetSystem
  | ipSetting
  | openTxPower
  | closeTxPower
  | openRxGain
  | closeRxGain
  deriving DecidableEq

/-- The entry of `record_str` for a command. -/
def Command.record : Command → Record
  | .openDistanceApp => .openDistanceSucc
  | .closeDistanceApp => .closeDistanceSucc
  | .openDac => .openDacSucc
  | .closeDac => .closeDacSucc
  | .clearLog => .clearLogSucc
  | .resetSystem => .resetSysSucc
  | .ipSetting => .ipSettingSucc
  | .openTxPower => .openTxpowerSucc
  | .closeTxPower => .closeTxpowerSucc
  | .openRxGain => .openRxgainSucc
  | .closeRxGain => .closeRxgainSucc

/-- A frame, with `cmd_state` and the string in `record_str` behind the user's address,
or with the arrays that are displayed. -/
inductive Frame (F : Type*) where
  | cmdState (cmdState : Int) (recordStr : String)
  | csiData (dbArray timeIQ : Fin 256 → F)
  | constellData (iqArray : List (Int × Int))

/-- The type word of a frame. -/
def Frame.type {F : Type*} : Frame F → Int
  | .cmdState _ _ => 70
  | .csiData _ _ => 54
  | .constellData _ => 64

/-- A frame with samples. -/
def Frame.isDisplay {F : Type*} (frame : Frame F) : Bool := frame.type ≠ 70

/-- The states of a `cmd_state` frame. -/
def CMD_OK : Int := 0
def CMD_FAIL : Int := -1
def CSI_MUTEX : Int := 2
def CONSTELL_MUTEX : Int := 3

variable {F : Type*}

def sendCmdState (connfd state : Int) (record : Record) : Int × Frame F :=
  let cmdState :=
    if state = CMD_OK then CMD_OK
    else if state = CSI_MUTEX then CSI_MUTEX
    else if state = CONSTELL_MUTEX then CONSTELL_MUTEX
    else CMD_FAIL
  (connfd, .cmdState cmdState (initRecordStr record))

/-- The loops of `send_csi_display_in_event_loop` and
`send_constell_display_in_event_loop`, over their lists. -/
def sendDisplay (nodes : List UserNode) (server : GServerPara) (frame : Frame F) :
    List (Int × Frame F) :=
  nodes.filterMap fun n =>
    (findUserNodeByConnfd n.connfd server).map fun session => (session.connfd, frame)

def csiDataResponse (s : CsiSpectrum F) : Frame F := .csiData (displayed s).1 (displayed s).2

/-- The pairs of `constell_data_response`. -/
def iqArray (g : ConstellationIqPair) : List (Int × Int) :=
  ((List.finRange 10000).take g.iqCnt.toNat).map fun e => (g.vectReal e, g.vectImag e)

/-- The event loop with what it computes displays from. -/
structure PageState (F : Type*) where
  loop : EventProcess.State
  csiSpectrum : CsiSpectrum F
  consIqPair : ConstellationIqPair

/-- A message of the loop, by what it does to the pages. -/
inductive PageLabel where
  | event (l : EventProcess.Label)
  | constellationReady {n : Nat} (buf : Fin n → UInt8)
  | command (connfd : Int) (command : Command)

variable (ops : FloatOps F) (fftwfExecute : (Fin 256 → F × F) → Fin 256 → F × F)

/-- `csi_spectrum` behind an event. -/
def spectrumBehind (e : Event) (s : CsiSpectrum F) : CsiSpectrum F :=
  match e with
  | .csiReady json =>
      if h : json.length = 1024 then
        CsiDisplay.processCSI ops fftwfExecute (fun i => json.get (i.cast h.symm)) s
      else s
  | _ => s

/-- A stop for a page that has not started frees the node of another one, which stays in
the list. -/
def StrayStop (s : EventProcess.State) (e : Event) : Prop :=
  match e with
  | .stopCsi connfd => ¬ EmptyOrListed connfd (s.dma.csiUserNodeHead.map UserNode.connfd)
  | .stopConstellation connfd =>
      ¬ EmptyOrListed connfd (s.dma.constellUserNodeHead.map UserNode.connfd)
  | _ => False

instance (s : EventProcess.State) (e : Event) : Decidable (StrayStop s e) := by
  unfold StrayStop
  split <;> infer_instance

/-- One message of the event loop. -/
def handle (s : PageState F) : PageLabel → Option (PageState F)
  | .event l =>
      if StrayStop s.loop l.event then none
      else
        (survive s.loop l).map fun loop =>
          { s with loop, csiSpectrum := spectrumBehind ops fftwfExecute l.event s.csiSpectrum }
  | .constellationReady buf =>
      (ConstellationDecoding.processConstellation buf s.consIqPair).map fun out =>
        { s with consIqPair := out.2 }
  | .command connfd _ => if connfd ∈ sessionConnfds s.loop.server then some s else none

def PageStep (s : PageState F) (l : PageLabel) (s' : PageState F) : Prop :=
  handle ops fftwfExecute s l = some s'

/-- The frames an event sends. -/
def sentByEvent (s : PageState F) (l : EventProcess.Label) : List (Int × Frame F) :=
  match l.event with
  | .controlRssi connfd json =>
      match processRssiSaveFile connfd json l.replies.save s.loop.broker with
      | .ok (ret, _) => [sendCmdState connfd ret .constrolRssiSucc]
      | .error _ => []
  | .startCsi connfd =>
      if checkConstellWorking s.loop.server = 1 then [sendCmdState connfd CSI_MUTEX .startCsiMutex]
      else
        [sendCmdState connfd (startCsiStateExternal connfd l.replies.start s.loop.dma).1
          .startCsiSucc]
  | .stopCsi connfd => [sendCmdState connfd CMD_OK .stopCsiSucc]
  | .csiReady json =>
      if json.length ≠ 1024 then []
      else
        sendDisplay s.loop.dma.csiUserNodeHead s.loop.server
          (csiDataResponse (spectrumBehind ops fftwfExecute l.event s.csiSpectrum))
  | .startConstellation connfd =>
      if checkCsiWorking s.loop.server = 1 then
        [sendCmdState connfd CONSTELL_MUTEX .startConstellMutex]
      else [sendCmdState connfd CMD_OK .startConstellSucc]
  | .stopConstellation connfd => [sendCmdState connfd CMD_OK .stopCsiSucc]
  | .controlSaveIqData connfd _ => [sendCmdState connfd CMD_OK .csiSaveSucc]
  | _ => []

/-- The frames that go out while a message is handled. -/
def sent (s : PageState F) : PageLabel → List (Int × Frame F)
  | .event l => sentByEvent ops fftwfExecute s l
  | .constellationReady buf =>
      match ConstellationDecoding.processConstellation buf s.consIqPair with
      | some (_, g) =>
          sendDisplay s.loop.dma.constellUserNodeHead s.loop.server (.constellData (iqArray g))
      | none => []
  | .command connfd command => [sendCmdState connfd CMD_OK command.record]

/-- What of it goes to one connection. -/
def toConnection (connfd : Int) (frames : List (Int × Frame F)) : List (Frame F) :=
  frames.filterMap fun x => if x.1 = connfd then some x.2 else none

end GwWeb.PageFrames
