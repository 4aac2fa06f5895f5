import GwWeb.NumeralParsing
import GwWeb.RequestParsing
import GwWeb.SteadySlots

/-!
The JSON fields of a request: what `processMessage_table_drive` and the handlers of
`MSG_CONTROL_RSSI`, `MSG_CONTROL_SAVE_IQ_DATA`, `MSG_IP_SETTING` and
`MSG_RF_FREQ_SETTING` read of the payload of a frame, in every state of the event loop.
-/

namespace GwWeb.RequestFields

open ByteMemory
open TextReading
open TransitionRuns
open GwWeb.WebCommon
open GwWeb.Server
open GwWeb.MosquittoBroker
open GwWeb.DmaHandler
open GwWeb.EventProcess
open GwWeb.FrameDispatch
open GwWeb.Receive hiding processMessageTableDrive
open GwWeb.RequestParsing
open GwWeb.NumeralParsing (stringToDecimalInt)
open GwWeb.WriteSlots
open GwWeb.SaveNodes
open GwWeb.SaveIsolation
open GwWeb.SlottedNodes
open GwWeb.SaveCommands
open GwWeb.SteadySlots

/-- The event loop, and `frequency_rf` of `rf_module.c`. -/
structure Program where
  loop : EventProcess.State
  frequencyRf : BitVec 32

/-- `process_rf_freq_setting`: the value of `frequency_rf`. `stringToDecimalInt` takes a
NULL `valuestring`; the log line behind it does not. -/
def processRfFreqSetting (root : CJson) : Except Fault (BitVec 32) :=
  match root "frequency" with
  | none => .error .nullPointer
  | some item => do
      let frequencyRf := stringToDecimalInt (item.valuestring.map stringBytes)
      let _ ← valuestring root "frequency"
      return frequencyRf

/-- `process_ip_setting` gets the item `ip` and does not look into it. -/
def processIpSetting (_root : CJson) : Int := 0

/-- What has become of a frame when the code that reads its JSON is done. -/
inductive Served where
  | handled (p : Program)
  | handedOn (getData : MsgSt)
  | answered (type : BitVec 32)
  | ignored
  | unknown

/-- The request is refused, and the program as it was. -/
def Served.Refused (p : Program) : Served → Prop
  | .handled p' => p' = p
  | .handedOn _ => False
  | .answered _ => True
  | .ignored => True
  | .unknown => True

/-- A frame as it meets the program: the connection it came on, and the memory it lies in. -/
structure Frame where
  connfd : Int
  gReceive : Nat
  payloadLength : Nat
  around : Surroundings

/-- The payload as its handler reads it in `recvbuf`. -/
def Frame.text (f : Frame) : Text := textAt f.around.recvbuf (f.around.buf + 8)

/-- The payload as its handler gets it, in front of what `malloc` returned. -/
def Frame.copiedText (f : Frame) : Text :=
  textAt (store f.around.msgSt 0 (bytesAt f.around.recvbuf (f.around.buf + 8) f.payloadLength)) 0

/-- The type word. -/
def Frame.type (myNtohl : (Nat → UInt8) → BitVec 32) (f : Frame) : BitVec 32 :=
  wordAt myNtohl f.around.recvbuf (f.around.buf + 4)

/-- The text has an item with this key. -/
def HasItem (json : CJson) (key : String) : Prop := (json key).isSome = true

/-- The item with this key is a string. -/
def HasString (json : CJson) (key : String) : Prop :=
  ((json key).bind CJsonItem.valuestring).isSome = true

/-- The item says this number. -/
def Says (json : CJson) (key : String) (value : Int) : Prop :=
  (json key).map CJsonItem.valueint = some value

instance (json : CJson) (key : String) : Decidable (HasItem json key) :=
  inferInstanceAs (Decidable (_ = _))

instance (json : CJson) (key : String) : Decidable (HasString json key) :=
  inferInstanceAs (Decidable (_ = _))

instance (json : CJson) (key : String) (value : Int) : Decidable (Says json key value) :=
  inferInstanceAs (Decidable (_ = _))

/-- What a save command reads behind `type`; a file is named to start what does not run. -/
@[mk_iff]
structure CommandFields (slot : Option WriteFile) (json : CJson) : Prop where
  opCmd : HasItem json "op_cmd"
  fileName : Says json "op_cmd" 1 → (slot.getD .fresh).enable ≠ 1 → HasString json "file_name"

/-- What a request for the RSSI save must have. -/
@[mk_iff]
structure RssiFields (connfd : Int) (json : CJson) (g : GBrokerPara) : Prop where
  type : HasItem json "type"
  command : Says json "type" typeRssiControl →
    ∀ u, findNode connfd g = some u → CommandFields (g.save.fileT u.addr) json

@[mk_iff]
structure CsiFields (connfd : Int) (json : CJson) (g : GDmaPara) : Prop where
  type : HasItem json "type"
  command : Says json "type" typeControlSaveCsi →
    CommandFields ((findCsiSaveUserNode connfd g).bind fun u => g.save.fileT u.addr) json

section Frames

variable {Tree : Type} (cJSONParse : Text → Option Tree) (getObjectItem : Tree → CJson)
  (myNtohl : (Nat → UInt8) → BitVec 32)

/-- What `cJSON_GetObjectItem` finds in a parsed text, or in NULL. -/
def itemsOf (root : Option Tree) : CJson := fun key => root.bind fun tree => getObjectItem tree key

/-- The event loop at a message that a frame has posted, as far as handlers parse
`msg_json`; the other messages go on to handlers that do not. -/
def handleMessage (connfd : Int) (r : Replies) (getData : MsgSt) (p : Program) :
    Except Fault Served :=
  let json := itemsOf getObjectItem (cJSONParse (textAt getData.msgJson 0))
  if getData.msgType = MsgEvent.controlRssi.code then do
    let loop ← handleControlRssi connfd json r p.loop
    return .handled { p with loop }
  else if getData.msgType = MsgEvent.controlSaveIqData.code then do
    let loop ← handleControlSaveIqData connfd json r p.loop
    return .handled { p with loop }
  else if getData.msgType = MsgEvent.ipSetting.code then
    let _ret := processIpSetting json
    .ok (.handled p)
  else if getData.msgType = MsgEvent.rfFreqSetting.code then do
    let frequencyRf ← processRfFreqSetting json
    return .handled { p with frequencyRf }
  else .ok (.handedOn getData)

/-- A frame from `processMessage_table_drive` to its handler, which meets the program `p`. -/
def processFrame (f : Frame) (r : Replies) (p : Program) : Except Fault Served := do
  let outcome ← processMessageTableDrive cJSONParse getObjectItem myNtohl f.around.recvbuf
    f.around.buf (f.payloadLength + 4) f.gReceive f.around.webMsg f.around.msgSt
  match outcome with
  | .posted getData => handleMessage cJSONParse getObjectItem f.connfd r getData p
  | .answered type => return .answered type
  | .ignored => return .ignored
  | .unknown => return .unknown

/-- Each field that the frame makes the program read is there, and a string where it is
read as one. -/
@[mk_iff]
structure FieldsPresent (f : Frame) (p : Program) : Prop where
  localIp : HasItem (itemsOf getObjectItem (cJSONParse f.text)) "localIp" →
    HasString (itemsOf getObjectItem (cJSONParse f.text)) "localIp"
  currentTime : HasItem (itemsOf getObjectItem (cJSONParse f.text)) "currentTime" →
    HasString (itemsOf getObjectItem (cJSONParse f.text)) "currentTime"
  rssiControl : f.type myNtohl = FrameType.rssiControl.code →
    RssiFields f.connfd (itemsOf getObjectItem (cJSONParse f.copiedText)) p.loop.broker
  controlSaveCsi : f.type myNtohl = FrameType.controlSaveCsi.code →
    CsiFields f.connfd (itemsOf getObjectItem (cJSONParse f.copiedText)) p.loop.dma
  rfFreqSetting : f.type myNtohl = FrameType.rfFreqSetting.code →
    HasString (itemsOf getObjectItem (cJSONParse f.copiedText)) "frequency"

/-- No missing field is read, and a request that lacks one is refused. -/
def ServesOrRefuses (f : Frame) (r : Replies) (p : Program) : Prop :=
  ∃ served, processFrame cJSONParse getObjectItem myNtohl f r p = .ok served ∧
    (¬ FieldsPresent cJSONParse getObjectItem myNtohl f p → served.Refused p)

end Frames

section Reads

variable {α β : Type} {json : CJson} {key : String}

/-- The code gets through. -/
def Returns (x : Except Fault α) : Prop := ∃ a, x = .ok a

theorem returns_ok (a : α) : Returns (.ok a : Except Fault α) := ⟨a, rfl⟩

theorem not_returns_error (f : Fault) : ¬ Returns (.error f : Except Fault α) := by
  rintro ⟨a, ha⟩
  cases ha

theorem returns_bind {x : Except Fault α} {f : α → Except Fault β} :
    Returns (x >>= f) ↔ ∃ a, x = .ok a ∧ Returns (f a) := by
  simp only [Returns, bind_eq_ok]
  constructor
  · rintro ⟨b, a, ha, hb⟩
    exact ⟨a, ha, b, hb⟩
  · rintro ⟨a, ha, b, hb⟩
    exact ⟨b, a, ha, hb⟩

theorem returns_bind_of_forall {x : Except Fault α} {f : α → Except Fault β}
    (h : ∀ a, x = .ok a → Returns (f a)) : Returns (x >>= f) ↔ Returns x := by
  rw [returns_bind]
  exact ⟨fun ⟨a, ha, _⟩ => ⟨a, ha⟩, fun ⟨a, ha⟩ => ⟨a, ha, h a ha⟩⟩

theorem returns_bind_pure {x : Except Fault α} {f : α → β} :
    Returns (x >>= fun a => pure (f a)) ↔ Returns x :=
  returns_bind_of_forall fun a _ => returns_ok (f a)

theorem valueint_eq_ok_iff {value : Int} : valueint json key = .ok value ↔ Says json key value := by
  unfold valueint Says
  cases json key <;> simp

theorem hasItem_of_valueint {value : Int} (h : valueint json key = .ok value) :
    HasItem json key := by
  unfold valueint at h
  unfold HasItem
  split at h
  · cases h
  · rename_i hitem
    simp [hitem]

theorem exists_valueint (h : HasItem json key) : ∃ value, valueint json key = .ok value := by
  obtain ⟨item, hitem⟩ := Option.isSome_iff_exists.mp h
  exact ⟨item.valueint, by simp [valueint, hitem]⟩

theorem returns_valuestring_iff : Returns (valuestring json key) ↔ HasString json key := by
  unfold valuestring HasString
  rcases json key with _ | ⟨value, _ | s⟩
  · simp [not_returns_error]
  · simp [not_returns_error]
  · simp [returns_ok]

theorem returns_processRfFreqSetting_iff :
    Returns (processRfFreqSetting json) ↔ HasString json "frequency" := by
  unfold processRfFreqSetting
  split
  · rename_i hnone
    simp [HasString, hnone, not_returns_error]
  · rw [← returns_valuestring_iff]
    exact returns_bind_pure

end Reads

section Saves

variable {w : WriteComponent} {allocated n : Nat} {t : WriteFile} {json : CJson} {r : SaveReplies}
  {connfd : Int}

theorem returns_informStop (h : Slotted w allocated) (hflags : BinaryFlags w)
    (hslot : w.fileT n = some t) (henable : t.enable ≠ 0) : Returns (informStop n r w) := by
  have hone : t.enable = 1 := (hflags n t hslot).resolve_left henable
  obtain ⟨k, hqueue⟩ := Option.isSome_iff_exists.mp (h.enabled n t hslot hone)
  obtain ⟨items, hitems⟩ := Option.isSome_iff_exists.mp (h.queue n t k hslot hqueue).2.2
  simp only [informStop, hslot, hqueue, tinyQueuePush, hitems]
  split <;> exact ⟨_, rfl⟩

theorem returns_saveCommand_iff (h : Slotted w allocated) (hflags : BinaryFlags w)
    (hslot : w.fileT n = some t) (already : Int) :
    Returns (saveCommand already n json r w) ↔ CommandFields (some t) json := by
  rw [saveCommand, returns_bind]
  simp only [hslot]
  constructor
  · rintro ⟨opCmd, hcmd, hreturns⟩
    refine ⟨hasItem_of_valueint hcmd, fun hsays henable => ?_⟩
    obtain rfl := Except.ok.inj (hcmd.symm.trans (valueint_eq_ok_iff.mpr hsays))
    have hidle : t.enable ≠ 1 := henable
    rw [if_neg (by decide), if_pos rfl, if_neg hidle, returns_bind_pure] at hreturns
    exact returns_valuestring_iff.mp hreturns
  · rintro ⟨hitem, hname⟩
    obtain ⟨opCmd, hcmd⟩ := exists_valueint hitem
    refine ⟨opCmd, hcmd, ?_⟩
    split
    · split
      · exact returns_ok _
      · rename_i henable
        rw [returns_bind_pure]
        exact returns_informStop h hflags hslot henable
    · split
      · rename_i hone
        subst hone
        split
        · exact returns_ok _
        · rename_i henable
          rw [returns_bind_pure, returns_valuestring_iff]
          exact hname (valueint_eq_ok_iff.mp hcmd) henable
      · exact returns_ok _

theorem returns_type_iff {α : Type} {type : Int} {other : α} {rest : Except Fault α} :
    Returns (do
      let itemType ← valueint json "type"
      if itemType ≠ type then return other else rest) ↔
      HasItem json "type" ∧ (Says json "type" type → Returns rest) := by
  rw [returns_bind]
  constructor
  · rintro ⟨itemType, htype, hrest⟩
    refine ⟨hasItem_of_valueint htype, fun hsays => ?_⟩
    obtain rfl := Except.ok.inj (htype.symm.trans (valueint_eq_ok_iff.mpr hsays))
    rwa [if_neg (by simp)] at hrest
  · rintro ⟨hitem, hrest⟩
    obtain ⟨itemType, htype⟩ := exists_valueint hitem
    refine ⟨itemType, htype, ?_⟩
    split
    · exact returns_ok _
    · rename_i hsame
      obtain rfl := not_not.mp hsame
      exact hrest (valueint_eq_ok_iff.mp htype)

theorem returns_processRssiSaveFile_iff {g : GBrokerPara} (h : RssiSlotted g)
    (hflags : BinaryFlags g.save) :
    Returns (processRssiSaveFile connfd json r g) ↔ RssiFields connfd json g := by
  rw [processRssiSaveFile, returns_type_iff, rssiFields_iff]
  refine and_congr_right fun _ => imp_congr_right fun _ => ?_
  cases hu : findNode connfd g with
  | none => simp [returns_ok, pure, Except.pure]
  | some u =>
      simp only [Option.some.injEq, forall_eq']
      rw [returns_bind_pure]
      cases hslot : g.save.fileT u.addr with
      | none =>
          have hfresh : Slotted (g.save.setFileT u.addr (some .fresh)) g.allocated :=
            h.save.setFileT (h.found hu).1 (by simp [WriteFile.fresh])
              (by simp [WriteFile.fresh]) (by simp [WriteFile.fresh])
          have hbinary : BinaryFlags (g.save.setFileT u.addr (some .fresh)) :=
            (Steady.setFileT fun _ => .inl rfl).flags hflags
          rw [returns_saveCommand_iff hfresh hbinary (WriteComponent.fileT_setFileT _ _ _),
            commandFields_iff, commandFields_iff]
          rfl
      | some t => exact returns_saveCommand_iff h.save hflags hslot _

theorem csiSaveUserNode_slot {g : GDmaPara} (h : Equipped g) (connfd : Int) :
    ∃ t, (csiSaveUserNode connfd g).2.save.fileT (csiSaveUserNode connfd g).1 = some t ∧
      ((findCsiSaveUserNode connfd g).bind fun u => g.save.fileT u.addr).getD .fresh = t := by
  unfold csiSaveUserNode
  cases hu : findCsiSaveUserNode connfd g with
  | none => exact ⟨.fresh, WriteComponent.fileT_setFileT _ _ _, rfl⟩
  | some u =>
      obtain ⟨t, hslot⟩ := Option.ne_none_iff_exists'.mp (h u (List.mem_of_find?_eq_some hu))
      exact ⟨t, hslot, by simp [hslot]⟩

theorem binaryFlags_csiSaveUserNode {g : GDmaPara} (hflags : BinaryFlags g.save) (connfd : Int) :
    BinaryFlags (csiSaveUserNode connfd g).2.save := by
  unfold csiSaveUserNode
  split
  · exact hflags
  · exact (Steady.setFileT fun _ => .inl rfl).flags hflags

theorem returns_processCsiSaveFile_iff {g : GDmaPara} (h : CsiSlotted g)
    (hflags : BinaryFlags g.save) (hequipped : Equipped g) :
    Returns (processCsiSaveFile connfd json r g) ↔ CsiFields connfd json g := by
  rw [processCsiSaveFile, returns_type_iff, csiFields_iff]
  refine and_congr_right fun _ => imp_congr_right fun _ => ?_
  obtain ⟨t, hslot, hfound⟩ := csiSaveUserNode_slot hequipped connfd
  have hbinary := binaryFlags_csiSaveUserNode hflags connfd
  have hslotted := (csiSaveUserNode_nodes h connfd).1.save
  dsimp only
  rw [returns_bind_pure, returns_saveCommand_iff hslotted hbinary hslot, commandFields_iff,
    commandFields_iff, hfound]
  rfl

theorem returns_saveFlag {type : Int} (htype : HasItem json "type")
    (hcmd : Says json "type" type → HasItem json "op_cmd") : Returns (saveFlag type json) := by
  refine returns_type_iff.mpr ⟨htype, fun hsays => ?_⟩
  rw [returns_bind_pure]
  exact exists_valueint (hcmd hsays)

end Saves

section Handlers

variable {json : CJson} {r : Replies} {connfd : Int} {s : State}

theorem returns_recordRssiSaveEnable (htype : HasItem json "type") (hcmd : HasItem json "op_cmd")
    (g : GServerPara) : Returns (recordRssiSaveEnable connfd json g) := by
  obtain ⟨flag, hflag⟩ : Returns (saveFlag typeRssiControl json) :=
    returns_saveFlag htype fun _ => hcmd
  refine returns_bind.mpr ⟨flag, hflag, ?_⟩
  cases flag <;> exact returns_ok _

theorem returns_recordCsiSaveEnable (htype : HasItem json "type")
    (hcmd : Says json "type" typeControlSaveCsi → HasItem json "op_cmd") (g : GServerPara) :
    Returns (recordCsiSaveEnable connfd json g) := by
  obtain ⟨flag, hflag⟩ := returns_saveFlag htype hcmd
  refine returns_bind.mpr ⟨flag, hflag, ?_⟩
  cases flag <;> exact returns_ok _

/-- The second reading of the request finds what the first has found. -/
theorem returns_handleControlRssi_iff (h : Regular s) :
    Returns (handleControlRssi connfd json r s) ↔ RssiFields connfd json s.broker := by
  rw [← returns_processRssiSaveFile_iff h.slots.rssi h.rssi]
  refine returns_bind_of_forall ?_
  rintro ⟨ret, broker⟩ hsave
  rw [returns_bind_pure]
  split
  · rename_i hzero
    rcases (processRssiSaveFile_slots h.slots.rssi hsave).2 with ⟨-, hne, -⟩ |
      ⟨u, opCmd, htype, hcmd, -⟩
    · exact absurd hzero hne
    · exact returns_recordRssiSaveEnable (hasItem_of_valueint htype) (hasItem_of_valueint hcmd) _
  · exact returns_ok _

theorem returns_handleControlSaveIqData_iff (h : Regular s) :
    Returns (handleControlSaveIqData connfd json r s) ↔ CsiFields connfd json s.dma := by
  rw [← returns_processCsiSaveFile_iff h.slots.csi h.csi h.equipped]
  refine returns_bind_of_forall ?_
  rintro ⟨ret, dma⟩ hsave
  rw [returns_bind_pure]
  cases processCsiSaveFile_commanded hsave with
  | otherType type htype hother =>
      refine returns_recordCsiSaveEnable (hasItem_of_valueint htype) (fun hsays => ?_) _
      exact absurd (Except.ok.inj (htype.symm.trans (valueint_eq_ok_iff.mpr hsays))) hother
  | found u t opCmd save htype hfind hslot hcmd =>
      exact returns_recordCsiSaveEnable (hasItem_of_valueint htype)
        (fun _ => hasItem_of_valueint hcmd) _
  | made opCmd save htype hfind hcmd =>
      exact returns_recordCsiSaveEnable (hasItem_of_valueint htype)
        (fun _ => hasItem_of_valueint hcmd) _

end Handlers

section Served

variable {Tree : Type} (cJSONParse : Text → Option Tree) (getObjectItem : Tree → CJson)
  (myNtohl : (Nat → UInt8) → BitVec 32)

theorem returns_withItem_iff {root : Option Tree} {key : String}
    {put : List UInt8 → WebMsg → WebMsg} {w : WebMsg} :
    Returns (withItem getObjectItem root key put w) ↔
      (HasItem (itemsOf getObjectItem root) key → HasString (itemsOf getObjectItem root) key) := by
  have hitem : itemString getObjectItem root key =
      valuestring (itemsOf getObjectItem root) key := by
    cases root <;> rfl
  have hhas : hasObjectItem getObjectItem root key = true ↔
      HasItem (itemsOf getObjectItem root) key := by
    cases root <;> simp [hasObjectItem, HasItem, itemsOf]
  unfold withItem
  split
  · rename_i hthere
    rw [returns_bind_pure, hitem, returns_valuestring_iff]
    exact ⟨fun hstring _ => hstring, fun h => h (hhas.mp hthere)⟩
  · rename_i hnone
    exact iff_of_true (returns_ok _) fun hthere => absurd (hhas.mpr hthere) hnone

theorem returns_parseRequestJson_iff {t : Text} {w : WebMsg} :
    Returns (parseRequestJson cJSONParse getObjectItem t w) ↔
      (HasItem (itemsOf getObjectItem (cJSONParse t)) "localIp" →
        HasString (itemsOf getObjectItem (cJSONParse t)) "localIp") ∧
      (HasItem (itemsOf getObjectItem (cJSONParse t)) "currentTime" →
        HasString (itemsOf getObjectItem (cJSONParse t)) "currentTime") := by
  unfold parseRequestJson
  dsimp only
  rw [returns_bind]
  constructor
  · rintro ⟨w', hip, htime⟩
    exact ⟨(returns_withItem_iff getObjectItem).mp ⟨w', hip⟩,
      (returns_withItem_iff getObjectItem).mp htime⟩
  · rintro ⟨hip, htime⟩
    obtain ⟨w', hw'⟩ := (returns_withItem_iff getObjectItem).mpr hip
    exact ⟨w', hw', (returns_withItem_iff getObjectItem).mpr htime⟩

theorem type_eq_iff {type msgType : BitVec 32} (hmsg : idxMsgFor type = some msgType)
    (frameType : FrameType) (event : MsgEvent)
    (hrow : idxMsgFor frameType.code = some event.code)
    (honly : ∀ row ∈ idxMsg, row.2 = event.code → row.1 = frameType) :
    type = frameType.code ↔ msgType = event.code := by
  constructor
  · rintro rfl
    exact Option.some.inj (hmsg.symm.trans hrow)
  · rintro rfl
    obtain ⟨frameType', hmem, rfl⟩ := mem_of_find_row hmsg
    exact congrArg FrameType.code (honly _ hmem rfl)

/-- What the handler of a message reads, by the message. -/
structure HandlerFields (connfd : Int) (msgType : BitVec 32) (json : CJson) (s : State) : Prop where
  rssi : msgType = MsgEvent.controlRssi.code → RssiFields connfd json s.broker
  csi : msgType = MsgEvent.controlSaveIqData.code → CsiFields connfd json s.dma
  freq : msgType = MsgEvent.rfFreqSetting.code → HasString json "frequency"

theorem handlerFields_of_other {connfd : Int} {msgType : BitVec 32} {json : CJson} {s : State}
    (h : ¬ IsOneOf jsonEvents msgType) : HandlerFields connfd msgType json s := by
  have hne : ∀ event ∈ jsonEvents, msgType ≠ event.code := by
    rintro event hevent rfl
    exact h (List.mem_map_of_mem hevent)
  constructor
  · exact fun heq => absurd heq (hne _ (by decide))
  · exact fun heq => absurd heq (hne _ (by decide))
  · exact fun heq => absurd heq (hne _ (by decide))

theorem returns_handleMessage_iff {connfd : Int} {r : Replies} {getData : MsgSt} {p : Program}
    (h : Regular p.loop) :
    Returns (handleMessage cJSONParse getObjectItem connfd r getData p) ↔
      HandlerFields connfd getData.msgType
        (itemsOf getObjectItem (cJSONParse (textAt getData.msgJson 0))) p.loop := by
  unfold handleMessage
  split
  · rename_i htype
    have hcsi : MsgEvent.controlRssi.code ≠ MsgEvent.controlSaveIqData.code := by decide
    have hfreq : MsgEvent.controlRssi.code ≠ MsgEvent.rfFreqSetting.code := by decide
    rw [returns_bind_pure, returns_handleControlRssi_iff h, htype]
    exact ⟨fun hrssi => ⟨fun _ => hrssi, fun heq => absurd heq hcsi, fun heq => absurd heq hfreq⟩,
      fun hall => hall.rssi rfl⟩
  · rename_i hrssi
    split
    · rename_i htype
      have hfreq : MsgEvent.controlSaveIqData.code ≠ MsgEvent.rfFreqSetting.code := by decide
      rw [returns_bind_pure, returns_handleControlSaveIqData_iff h]
      exact ⟨fun hcsi => ⟨fun heq => absurd heq hrssi, fun _ => hcsi,
          fun heq => absurd (htype.symm.trans heq) hfreq⟩,
        fun hall => hall.csi htype⟩
    · rename_i hcsi
      split
      · rename_i htype
        have hfreq : MsgEvent.ipSetting.code ≠ MsgEvent.rfFreqSetting.code := by decide
        exact iff_of_true (returns_ok _) ⟨fun heq => absurd heq hrssi, fun heq => absurd heq hcsi,
          fun heq => absurd (htype.symm.trans heq) hfreq⟩
      · split
        · rename_i htype
          rw [returns_bind_pure, returns_processRfFreqSetting_iff]
          exact ⟨fun hstring => ⟨fun heq => absurd heq hrssi, fun heq => absurd heq hcsi,
              fun _ => hstring⟩,
            fun hall => hall.freq htype⟩
        · rename_i hfreq
          exact iff_of_true (returns_ok _) ⟨fun heq => absurd heq hrssi,
            fun heq => absurd heq hcsi, fun heq => absurd heq hfreq⟩

variable {f : Frame} {r : Replies} {p : Program}

theorem postMsg_copied (f : Frame) (msgType : BitVec 32) (w : WebMsg) :
    ∃ msg, postMsg msgType (some (f.around.recvbuf, f.around.buf + 8)) (f.payloadLength + 4 - 4) w
        f.around.msgSt = .ok msg ∧
      msg.msgType = msgType ∧ textAt msg.msgJson 0 = f.copiedText := by
  have hlength : (f.payloadLength + 4 - 4 : Int) = f.payloadLength := by omega
  rw [hlength, postMsg, Frame.copiedText]
  split
  · rename_i hzero
    have hempty : store f.around.msgSt 0
        (bytesAt f.around.recvbuf (f.around.buf + 8) f.payloadLength) = f.around.msgSt := by
      funext i
      refine store_outside ?_
      rw [bytesAt_length]
      omega
    exact ⟨_, rfl, rfl, congrArg (textAt · 0) hempty.symm⟩
  · rw [if_neg (by omega), Int.toNat_natCast]
    exact ⟨_, rfl, rfl, rfl⟩

theorem fieldsPresent_iff_of_msg {msgType : BitVec 32}
    (hmsg : idxMsgFor (f.type myNtohl) = some msgType) :
    FieldsPresent cJSONParse getObjectItem myNtohl f p ↔
      ((HasItem (itemsOf getObjectItem (cJSONParse f.text)) "localIp" →
          HasString (itemsOf getObjectItem (cJSONParse f.text)) "localIp") ∧
        (HasItem (itemsOf getObjectItem (cJSONParse f.text)) "currentTime" →
          HasString (itemsOf getObjectItem (cJSONParse f.text)) "currentTime")) ∧
      HandlerFields f.connfd msgType (itemsOf getObjectItem (cJSONParse f.copiedText)) p.loop := by
  have hrssi := type_eq_iff hmsg .rssiControl .controlRssi (by decide) (by decide)
  have hcsi := type_eq_iff hmsg .controlSaveCsi .controlSaveIqData (by decide) (by decide)
  have hfreq := type_eq_iff hmsg .rfFreqSetting .rfFreqSetting (by decide) (by decide)
  rw [fieldsPresent_iff, hrssi, hcsi, hfreq]
  constructor
  · rintro ⟨hip, htime, hrssi, hcsi, hfreq⟩
    exact ⟨⟨hip, htime⟩, hrssi, hcsi, hfreq⟩
  · rintro ⟨⟨hip, htime⟩, hrssi, hcsi, hfreq⟩
    exact ⟨hip, htime, hrssi, hcsi, hfreq⟩

theorem returns_processFrame_iff (h : Regular p.loop) :
    Returns (processFrame cJSONParse getObjectItem myNtohl f r p) ↔
      FieldsPresent cJSONParse getObjectItem myNtohl f p := by
  have hparse := returns_parseRequestJson_iff cJSONParse getObjectItem (t := f.text)
    (w := { f.around.webMsg with pointAddr1 := f.gReceive })
  by_cases hpresent : Returns (parseRequestJson cJSONParse getObjectItem f.text
      { f.around.webMsg with pointAddr1 := f.gReceive })
  · obtain ⟨w, hw⟩ := hpresent
    obtain ⟨hip, htime⟩ := hparse.mp ⟨w, hw⟩
    simp only [Frame.text] at hw
    cases hfun : funFor (f.type myNtohl) with
    | none =>
        have hother : ∀ frameType : FrameType, (funFor frameType.code).isSome →
            f.type myNtohl ≠ frameType.code := by
          intro frameType hknown htype
          rw [← htype, hfun] at hknown
          cases hknown
        rw [Frame.type] at hfun
        simp only [processFrame, processMessageTableDrive, hw, hfun, bind, Except.bind]
        refine iff_of_true (returns_ok _) ⟨hip, htime, ?_, ?_, ?_⟩
        · exact fun htype => absurd htype (hother _ (by decide))
        · exact fun htype => absurd htype (hother _ (by decide))
        · exact fun htype => absurd htype (hother _ (by decide))
    | some fn =>
        obtain ⟨msgType, hmsg⟩ := Option.isSome_iff_exists.mp (idxMsgFor_isSome hfun)
        rw [fieldsPresent_iff_of_msg cJSONParse getObjectItem myNtohl hmsg,
          and_iff_right ⟨hip, htime⟩]
        rw [Frame.type] at hfun hmsg
        simp only [processFrame, processMessageTableDrive, hw, hfun, callFun, hmsg, bind,
          Except.bind]
        obtain ⟨hother, -⟩ := event_of_fun hfun hmsg
        cases fn with
        | processNoJsonFun =>
            have hfields : ∀ json, HandlerFields f.connfd msgType json p.loop := fun json =>
              handlerFields_of_other (hother (by decide))
            exact iff_of_true
              ((returns_handleMessage_iff cJSONParse getObjectItem h).mpr (hfields _)) (hfields _)
        | processJsonFun =>
            obtain ⟨msg, hpost, rfl, hcopied⟩ := postMsg_copied f msgType w
            rw [← hcopied, ← returns_handleMessage_iff cJSONParse getObjectItem h (r := r), hpost]
            rfl
        | fastResponseFun =>
            exact iff_of_true (returns_ok _) (handlerFields_of_other (hother (by decide)))
  · refine iff_of_false ?_ fun hall => hpresent (hparse.mpr ⟨hall.localIp, hall.currentTime⟩)
    rw [processFrame, returns_bind]
    rintro ⟨outcome, hdrive, -⟩
    obtain ⟨w, hw, -⟩ := bind_eq_ok.mp hdrive
    exact hpresent ⟨w, hw⟩

theorem not_serves_of_error (fault : Fault)
    (h : processFrame cJSONParse getObjectItem myNtohl f r p = .error fault) :
    ¬ ServesOrRefuses cJSONParse getObjectItem myNtohl f r p := by
  rintro ⟨served, hserved, -⟩
  cases h.symm.trans hserved

end Served

/-- A frame from connection 7, in memory that is zero behind its payload. -/
def frameOf (frameType : FrameType) (payload : List UInt8) : Frame where
  connfd := 7
  gReceive := 0
  payloadLength := payload.length
  around :=
    { recvbuf := layFrame frameType.code fun i => payload.getD i 0
      buf := 0
      webMsg := ⟨-1, 0, none, 0, fun _ => 0⟩
      msgSt := fun _ => 0 }

theorem begins_text_frameOf (frameType : FrameType) (payload : List UInt8) :
    Begins payload (frameOf frameType payload).text := by
  change Begins payload (textAt (layFrame frameType.code fun i => payload.getD i 0) 8)
  rw [textAt_layFrame]
  exact List.ext_getElem (by simp) fun i hi hi' => by simp [hi']

theorem begins_copiedText_frameOf (frameType : FrameType) (payload : List UInt8) :
    Begins payload (frameOf frameType payload).copiedText := by
  have hpayload : bytesAt (frameOf frameType payload).around.recvbuf 8 payload.length = payload :=
    begins_text_frameOf frameType payload
  change Begins payload (textAt (store (fun _ => 0) 0
    (bytesAt (frameOf frameType payload).around.recvbuf 8 payload.length)) 0)
  rw [hpayload]
  exact bytesAt_store _ 0 payload

def saveStart : List UInt8 :=
  stringBytes "\x7b\"type\":43,\"op_cmd\":1,\"file_name\":\"a\"\x7d"

/-- `localIp` is a number. -/
def numberedIp : List UInt8 := stringBytes "\x7b\"localIp\":5\x7d"

def numberedIpTree : CJson := fun key =>
  if key = "localIp" then some { valueint := 5, valuestring := none } else none

end GwWeb.RequestFields
