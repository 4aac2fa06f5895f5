import Mathlib.Tactic.Common

/-!
The tables of `server.c` that take a frame type to the function for it and to the
message it posts, with the enumerations of `web_common.h`.
-/

namespace GwWeb.FrameDispatch

/-- The frame types that come in, and the response to a keep-alive. -/
inductive FrameType where
  | systemStateRequest
  | regStateRequest
  | inquiryRssiRequest
  | rssiControl
  | startCsi
  | stopCsi
  | controlSaveCsi
  | startConstellation
  | stopConstellation
  | openDistanceApp
  | closeDistanceApp
  | openDac
  | closeDac
  | clearLog
  | ipSetting
  | reset
  | statisticsInfo
  | rfInfo
  | rfFreqSetting
  | openTxPower
  | closeTxPower
  | openRxGain
  | closeRxGain
  | openwrtKeepalive
  | openwrtKeepaliveResponse
  deriving DecidableEq

/-- The numbers of `web_common.h`. -/
def FrameType.code : FrameType → BitVec 32
  | systemStateRequest => 1
  | regStateRequest => 31
  | inquiryRssiRequest => 41
  | rssiControl => 43
  | startCsi => 51
  | stopCsi => 52
  | controlSaveCsi => 53
  | startConstellation => 61
  | stopConstellation => 62
  | openDistanceApp => 71
  | closeDistanceApp => 72
  | openDac => 73
  | closeDac => 74
  | clearLog => 75
  | ipSetting => 76
  | reset => 77
  | statisticsInfo => 81
  | rfInfo => 83
  | rfFreqSetting => 91
  | openTxPower => 92
  | closeTxPower => 93
  | openRxGain => 94
  | closeRxGain => 95
  | openwrtKeepalive => 201
  | openwrtKeepaliveResponse => 202

inductive MsgEvent where
  | network
  | air
  | monitor
  | timeout
  | timeoutTest
  | confChange
  | openwrtConnected
  | openwrtDisconnect
  | acceptNewUser
  | delDisconnectUser
  | inquirySystemState
  | systemStateException
  | inquiryRegState
  | inquiryRssi
  | rssiReadyAndSend
  | controlRssi
  | clearRssiWriteStatus
  | startCsi
  | stopCsi
  | csiReady
  | startConstellation
  | stopConstellation
  | constellationReady
  | controlSaveIqData
  | clearCsiWriteStatus
  | openDistanceApp
  | closeDistanceApp
  | openDac
  | closeDac
  | clearLog
  | resetSystem
  | inquiryStatistics
  | ipSetting
  | inquiryRfInfo
  | rfInfoReady
  | rfFreqSetting
  | openTxPower
  | closeTxPower
  | openRxGain
  | closeRxGain
  deriving DecidableEq

/-- The enumerators are consecutive from 1. -/
def MsgEvent.code (e : MsgEvent) : BitVec 32 := BitVec.ofNat 32 (e.ctorIdx + 1)

/-- The type is the number of one of these events. -/
def IsOneOf (events : List MsgEvent) (msgType : BitVec 32) : Prop :=
  msgType ∈ events.map MsgEvent.code

instance (events : List MsgEvent) (msgType : BitVec 32) : Decidable (IsOneOf events msgType) :=
  inferInstanceAs (Decidable (_ ∈ _))

/-- `idx_msg`. The row of the keep-alive has a frame type in the second column. -/
def idxMsg : List (FrameType × BitVec 32) :=
  [(.systemStateRequest, MsgEvent.inquirySystemState.code),
    (.regStateRequest, MsgEvent.inquiryRegState.code),
    (.inquiryRssiRequest, MsgEvent.inquiryRssi.code),
    (.startCsi, MsgEvent.startCsi.code),
    (.stopCsi, MsgEvent.stopCsi.code),
    (.startConstellation, MsgEvent.startConstellation.code),
    (.stopConstellation, MsgEvent.stopConstellation.code),
    (.openDistanceApp, MsgEvent.openDistanceApp.code),
    (.closeDistanceApp, MsgEvent.closeDistanceApp.code),
    (.openDac, MsgEvent.openDac.code),
    (.closeDac, MsgEvent.closeDac.code),
    (.clearLog, MsgEvent.clearLog.code),
    (.reset, MsgEvent.resetSystem.code),
    (.statisticsInfo, MsgEvent.inquiryStatistics.code),
    (.rfInfo, MsgEvent.inquiryRfInfo.code),
    (.openTxPower, MsgEvent.openTxPower.code),
    (.closeTxPower, MsgEvent.closeTxPower.code),
    (.openRxGain, MsgEvent.openRxGain.code),
    (.closeRxGain, MsgEvent.closeRxGain.code),
    (.rssiControl, MsgEvent.controlRssi.code),
    (.controlSaveCsi, MsgEvent.controlSaveIqData.code),
    (.ipSetting, MsgEvent.ipSetting.code),
    (.rfFreqSetting, MsgEvent.rfFreqSetting.code),
    (.openwrtKeepalive, FrameType.openwrtKeepaliveResponse.code)]

inductive ProcMsgFun where
  | processNoJsonFun
  | processJsonFun
  | fastResponseFun
  deriving DecidableEq

def msgFlow : List (FrameType × ProcMsgFun) :=
  [(.systemStateRequest, .processNoJsonFun),
    (.regStateRequest, .processNoJsonFun),
    (.inquiryRssiRequest, .processNoJsonFun),
    (.startCsi, .processNoJsonFun),
    (.stopCsi, .processNoJsonFun),
    (.startConstellation, .processNoJsonFun),
    (.stopConstellation, .processNoJsonFun),
    (.openDistanceApp, .processNoJsonFun),
    (.closeDistanceApp, .processNoJsonFun),
    (.openDac, .processNoJsonFun),
    (.closeDac, .processNoJsonFun),
    (.clearLog, .processNoJsonFun),
    (.reset, .processNoJsonFun),
    (.statisticsInfo, .processNoJsonFun),
    (.rfInfo, .processNoJsonFun),
    (.openTxPower, .processNoJsonFun),
    (.closeTxPower, .processNoJsonFun),
    (.openRxGain, .processNoJsonFun),
    (.closeRxGain, .processNoJsonFun),
    (.rssiControl, .processJsonFun),
    (.controlSaveCsi, .processJsonFun),
    (.ipSetting, .processJsonFun),
    (.rfFreqSetting, .processJsonFun),
    (.openwrtKeepalive, .fastResponseFun)]

/-- The search of the functions in `msg_flow` through `idx_msg`. -/
def idxMsgFor (type : BitVec 32) : Option (BitVec 32) :=
  (idxMsg.find? fun row => row.1.code = type).map Prod.snd

/-- The search of `processMessage_table_drive` through `msg_flow`. -/
def funFor (type : BitVec 32) : Option ProcMsgFun :=
  (msgFlow.find? fun row => row.1.code = type).map Prod.snd

theorem mem_of_find_row {α : Type} {table : List (FrameType × α)} {type : BitVec 32} {x : α}
    (h : (table.find? fun row => row.1.code = type).map Prod.snd = some x) :
    ∃ frameType, (frameType, x) ∈ table ∧ frameType.code = type := by
  obtain ⟨⟨frameType, y⟩, hfind, rfl⟩ := Option.map_eq_some_iff.mp h
  exact ⟨frameType, List.mem_of_find?_eq_some hfind, by simpa using List.find?_some hfind⟩

theorem find_row_isSome {α : Type} {table : List (FrameType × α)} {frameType : FrameType}
    (h : frameType ∈ table.map Prod.fst) :
    ((table.find? fun row => row.1.code = frameType.code).map Prod.snd).isSome := by
  obtain ⟨row, hrow, rfl⟩ := List.mem_map.mp h
  rw [Option.isSome_map, List.find?_isSome]
  exact ⟨row, hrow, by simp⟩

theorem idxMsgFor_isSome {type : BitVec 32} {f : ProcMsgFun} (h : funFor type = some f) :
    (idxMsgFor type).isSome := by
  obtain ⟨frameType, hrow, rfl⟩ := mem_of_find_row h
  have hkeys : idxMsg.map Prod.fst = msgFlow.map Prod.fst := by decide
  exact find_row_isSome (hkeys ▸ List.mem_map_of_mem (f := Prod.fst) hrow)

end GwWeb.FrameDispatch
