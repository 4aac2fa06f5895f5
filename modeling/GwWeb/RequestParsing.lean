import GwWeb.FrameDispatch
import GwWeb.JsonScanner
import GwWeb.ReceiveDeframing
import GwWeb.WebCommon

/-!
From a frame to what its handler sees: `parseRequestJson`, `postMsg` and the handlers
in the event loop, over memory of any content.
-/

namespace GwWeb.RequestParsing

open ByteMemory
open JsonScanner
open TextReading
open GwWeb.FrameDispatch
open GwWeb.Receive hiding processMessageTableDrive
open GwWeb.WebCommon

/-- `web_msg_t`; `strings` holds `localIP` from 0 on and `currentTime` from 128 on. -/
structure WebMsg where
  arg1 : Int
  pointAddr1 : Nat
  bufData : Option Nat
  bufDataLen : Int
  strings : Memory

/-- `struct msg_st`, with the `web_msg_t` behind its `tmp_data`. -/
structure MsgSt where
  msgType : BitVec 32
  msgLen : Int
  msgJson : Memory
  tmpData : WebMsg

/-- What comes of a frame: a message, an answer at once, or nothing. -/
inductive Outcome (α : Type) where
  | posted (a : α)
  | answered (type : BitVec 32)
  | ignored
  | unknown

/-- What comes of a frame, seen through `f`. -/
def Outcome.map {α β : Type} (f : α → β) : Outcome α → Outcome β
  | .posted a => .posted (f a)
  | .answered type => .answered type
  | .ignored => .ignored
  | .unknown => .unknown

/-- What the handler of a message reads of it: the tree of `msg_json`, the strings and
the length in `web_msg_t`. -/
structure HandlerSight (Tree : Type) where
  tree : Option (Option Tree)
  localIP : Option (Nat → Option UInt8)
  currentTime : Option (Nat → Option UInt8)
  bufDataLen : Option Int

/-- What the code sees of a frame: the tree, and what comes of it. -/
structure Sight (Tree : Type) where
  request : Option Tree
  outcome : Except Fault (Outcome (HandlerSight Tree))

/-- All memory that a frame meets; its own bytes start at `buf`. -/
structure Surroundings where
  recvbuf : Memory
  buf : Int
  webMsg : WebMsg
  msgSt : Memory

/-- `postMsg`: the payload is copied to fresh memory. -/
def postMsg (msgType : BitVec 32) (buf : Option (Memory × Int)) (bufLen : Int) (tmpData : WebMsg)
    (fresh : Memory) : Except Fault MsgSt :=
  match buf with
  | none => .ok { msgType, msgLen := bufLen, msgJson := fresh, tmpData }
  | some (m, p) =>
      if bufLen = 0 then .ok { msgType, msgLen := bufLen, msgJson := fresh, tmpData }
      else if bufLen < 0 then .error .badLength
      else
        .ok { msgType, msgLen := bufLen, msgJson := store fresh 0 (bytesAt m p bufLen.toNat),
              tmpData }

section Requests

-- cJSON is not part of this program: `cJSON_Parse` reads up to a JSON value or a syntax
-- error, which a NUL byte is; `none` is its NULL
variable {Tree : Type} (cJSONParse : Text → Option Tree) (getObjectItem : Tree → CJson)

/-- `cJSON_HasObjectItem`. -/
def hasObjectItem (root : Option Tree) (key : String) : Bool :=
  match root with
  | none => false
  | some tree => (getObjectItem tree key).isSome

/-- The `valuestring` of an item. -/
def itemString (root : Option Tree) (key : String) : Except Fault String :=
  match root with
  | none => .error .nullPointer
  | some tree => valuestring (getObjectItem tree) key

/-- What `parseRequestJson` does with an item, if there is one. -/
def withItem (root : Option Tree) (key : String) (put : List UInt8 → WebMsg → WebMsg)
    (msgTmp : WebMsg) : Except Fault WebMsg :=
  if hasObjectItem getObjectItem root key then do
    let s ← itemString getObjectItem root key
    return put (stringBytes s) msgTmp
  else .ok msgTmp

/-- `memcpy` to `localIP`. -/
def putLocalIP (s : List UInt8) (msgTmp : WebMsg) : WebMsg :=
  { msgTmp with strings := store msgTmp.strings 0 (s ++ [0]) }

/-- `memcpy` to `currentTime`, whose length is kept in `buf_data_len`. -/
def putCurrentTime (s : List UInt8) (msgTmp : WebMsg) : WebMsg :=
  { msgTmp with strings := store msgTmp.strings 128 (s ++ [0]), bufDataLen := s.length + 1 }

def parseRequestJson (requestBuf : Text) (msgTmp : WebMsg) : Except Fault WebMsg := do
  let root := cJSONParse requestBuf
  let msgTmp := { msgTmp with arg1 := -1, bufData := none, bufDataLen := 0 }
  let msgTmp ← withItem getObjectItem root "localIp" putLocalIP msgTmp
  withItem getObjectItem root "currentTime" putCurrentTime msgTmp

/-- The functions in `msg_flow`, for the frame behind `jsonfile`. -/
def callFun (fn : ProcMsgFun) (type : BitVec 32) (recvbuf : Memory) (jsonfile : Int)
    (bufLen : Int) (msgTmp : WebMsg) (fresh : Memory) : Except Fault (Outcome MsgSt) :=
  match idxMsgFor type with
  | none => .ok .ignored
  | some msgType =>
      match fn with
      | .processNoJsonFun => do
          let msg ← postMsg msgType none 0 msgTmp fresh
          return .posted msg
      | .processJsonFun => do
          let msg ← postMsg msgType (some (recvbuf, jsonfile)) bufLen msgTmp fresh
          return .posted msg
      | .fastResponseFun => .ok (.answered msgType)

/-- `processMessage_table_drive`; `webMsg` and `msgSt` are what `malloc` returns. -/
def processMessageTableDrive (myNtohl : (Nat → UInt8) → BitVec 32) (recvbuf : Memory)
    (buf length : Int) (gReceive : Nat) (webMsg : WebMsg) (msgSt : Memory) :
    Except Fault (Outcome MsgSt) := do
  let type := wordAt myNtohl recvbuf (buf + 4)
  let jsonfile := buf + 8
  let msgTmp ← parseRequestJson cJSONParse getObjectItem (textAt recvbuf jsonfile)
    { webMsg with pointAddr1 := gReceive }
  match funFor type with
  | none => return .unknown
  | some fn => callFun fn type recvbuf jsonfile (length - 4) msgTmp msgSt

/-- The messages whose handler parses `msg_json`. -/
def jsonEvents : List MsgEvent := [.controlRssi, .controlSaveIqData, .ipSetting, .rfFreqSetting]

/-- The event loop at a message that a frame has posted: what it reads of the frame.
`updateSystemTime` is the flag in `g_server`. -/
def handlerSight (updateSystemTime : Bool) (getData : MsgSt) : HandlerSight Tree :=
  if getData.msgType = MsgEvent.inquirySystemState.code then
    { tree := none
      localIP := some (cString getData.tmpData.strings 0)
      currentTime :=
        if updateSystemTime ∧ getData.tmpData.bufDataLen ≠ 0 then
          some (cString getData.tmpData.strings 128)
        else none
      bufDataLen := if updateSystemTime then some getData.tmpData.bufDataLen else none }
  else if IsOneOf jsonEvents getData.msgType then
    { tree := some (cJSONParse (textAt getData.msgJson 0))
      localIP := none, currentTime := none, bufDataLen := none }
  else { tree := none, localIP := none, currentTime := none, bufDataLen := none }

/-- All that is seen of a frame of this length. -/
def sight (myNtohl : (Nat → UInt8) → BitVec 32) (updateSystemTime : Bool) (gReceive : Nat)
    (length : Int) (e : Surroundings) : Sight Tree where
  request := cJSONParse (textAt e.recvbuf (e.buf + 8))
  outcome := (processMessageTableDrive cJSONParse getObjectItem myNtohl e.recvbuf e.buf length
    gReceive e.webMsg e.msgSt).map (Outcome.map (handlerSight cJSONParse updateSystemTime))

/-- The bytes of the frame lie at `buf`. -/
def Carries (myNtohl : (Nat → UInt8) → BitVec 32) (call : FrameCall) (e : Surroundings) : Prop :=
  Receive.processMessageTableDrive myNtohl e.recvbuf e.buf (call.jsonfile.length + 4) = call

/-- What is seen of the frame is the same in all surroundings, and the handler sees
the tree that `processMessage_table_drive` sees. -/
def DependsOnFrame (myNtohl : (Nat → UInt8) → BitVec 32) (updateSystemTime : Bool)
    (gReceive : Nat) (call : FrameCall) : Prop :=
  ∀ e e', Carries myNtohl call e → Carries myNtohl call e' →
    let seen := sight cJSONParse getObjectItem myNtohl updateSystemTime gReceive
      (call.jsonfile.length + 4)
    seen e = seen e' ∧
      ∀ handled tree, (seen e).outcome = .ok (.posted handled) → handled.tree = some tree →
        tree = (seen e).request

/-- The tree of a payload with NUL bytes behind it. -/
def treeOf (payload : List UInt8) : Option Tree := cJSONParse (textOf payload)

/-- `localIP` is written, unless `parseRequestJson` follows a NULL `valuestring` of
`currentTime`. -/
def WritesLocalIP (root : Option Tree) : Prop :=
  hasObjectItem getObjectItem root "localIp" = true ∨
    hasObjectItem getObjectItem root "currentTime" = true ∧
      ∃ f, itemString getObjectItem root "currentTime" = .error f

/-- What two runs hold in `web_msg_t` as far as the handlers read it. -/
structure Alike (root : Option Tree) (w w' : WebMsg) : Prop where
  bufDataLen : w.bufDataLen = w'.bufDataLen
  currentTime : w.bufDataLen ≠ 0 → cString w.strings 128 = cString w'.strings 128
  localIP : hasObjectItem getObjectItem root "localIp" = true →
    cString w.strings 0 = cString w'.strings 0

/-- `localIP` is read whole behind a store of `currentTime` too: a `localIP` of 128
bytes or more ends in `currentTime`. -/
theorem cString_store_store (m m' : Memory) (localIP currentTime : List UInt8) :
    cString (store (store m 0 (localIP ++ [0])) 128 (currentTime ++ [0])) 0 =
      cString (store (store m' 0 (localIP ++ [0])) 128 (currentTime ++ [0])) 0 := by
  have hsame : ∀ i : Nat, i ≤ localIP.length ∨ 128 ≤ i ∧ i ≤ 128 + currentTime.length →
      store (store m 0 (localIP ++ [0])) 128 (currentTime ++ [0]) (0 + i) =
        store (store m' 0 (localIP ++ [0])) 128 (currentTime ++ [0]) (0 + i) := by
    intro i hi
    simp only [store, List.length_append, List.length_singleton]
    split
    · rfl
    · rw [if_pos (by omega), if_pos (by omega)]
  rcases Nat.lt_or_ge localIP.length 128 with hshort | hlong
  · refine cString_congr (n := localIP.length) ?_ fun i hi => hsame i (.inl hi)
    simp only [store, List.length_append, List.length_singleton]
    rw [if_neg (by omega), if_pos (by omega)]
    simp
  · refine cString_congr (n := 128 + currentTime.length) ?_ fun i hi => hsame i (by omega)
    simp only [store, List.length_append, List.length_singleton]
    rw [if_pos (by omega)]
    have hindex :
        (0 + ((128 + currentTime.length : Nat) : Int) - 128).toNat = currentTime.length := by
      omega
    rw [hindex]
    simp

theorem withItem_of_not_has {root : Option Tree} {key : String}
    (h : hasObjectItem getObjectItem root key = false) (put : List UInt8 → WebMsg → WebMsg)
    (w : WebMsg) : withItem getObjectItem root key put w = .ok w := by
  simp [withItem, h]

theorem withItem_of_error {root : Option Tree} {key : String} {f : Fault}
    (h : hasObjectItem getObjectItem root key = true)
    (hitem : itemString getObjectItem root key = .error f)
    (put : List UInt8 → WebMsg → WebMsg) (w : WebMsg) :
    withItem getObjectItem root key put w = .error f := by
  simp [withItem, h, hitem, bind, Except.bind]

theorem withItem_of_ok {root : Option Tree} {key s : String}
    (h : hasObjectItem getObjectItem root key = true)
    (hitem : itemString getObjectItem root key = .ok s)
    (put : List UInt8 → WebMsg → WebMsg) (w : WebMsg) :
    withItem getObjectItem root key put w = .ok (put (stringBytes s) w) := by
  simp [withItem, h, hitem, bind, Except.bind, pure, Except.pure]

/-- From one tree two runs go on alike, or both follow a NULL pointer. -/
theorem parseRequestJson_alike {t t' : Text} (hroot : cJSONParse t = cJSONParse t')
    (w w' : WebMsg) :
    (∃ f, parseRequestJson cJSONParse getObjectItem t w = .error f ∧
        parseRequestJson cJSONParse getObjectItem t' w' = .error f) ∨
      ∃ x x', parseRequestJson cJSONParse getObjectItem t w = .ok x ∧
        parseRequestJson cJSONParse getObjectItem t' w' = .ok x' ∧
        Alike getObjectItem (cJSONParse t) x x' := by
  simp only [parseRequestJson, ← hroot]
  generalize cJSONParse t = root
  cases hip : hasObjectItem getObjectItem root "localIp" with
  | false =>
      simp only [withItem_of_not_has getObjectItem hip, bind, Except.bind]
      cases htime : hasObjectItem getObjectItem root "currentTime" with
      | false =>
          simp only [withItem_of_not_has getObjectItem htime]
          exact .inr ⟨_, _, rfl, rfl, rfl, fun hne => absurd rfl hne, by simp [hip]⟩
      | true =>
          cases hitem : itemString getObjectItem root "currentTime" with
          | error f =>
              simp only [withItem_of_error getObjectItem htime hitem]
              exact .inl ⟨f, rfl, rfl⟩
          | ok s =>
              simp only [withItem_of_ok getObjectItem htime hitem]
              exact .inr ⟨_, _, rfl, rfl, rfl, fun _ => cString_store _ _ _ _, by simp [hip]⟩
  | true =>
      cases hitem : itemString getObjectItem root "localIp" with
      | error f =>
          simp only [withItem_of_error getObjectItem hip hitem, bind, Except.bind]
          exact .inl ⟨f, rfl, rfl⟩
      | ok ip =>
          simp only [withItem_of_ok getObjectItem hip hitem, bind, Except.bind]
          cases htime : hasObjectItem getObjectItem root "currentTime" with
          | false =>
              simp only [withItem_of_not_has getObjectItem htime]
              exact .inr ⟨_, _, rfl, rfl, rfl, fun hne => absurd rfl hne,
                fun _ => cString_store _ _ _ _⟩
          | true =>
              cases hitem' : itemString getObjectItem root "currentTime" with
              | error f =>
                  simp only [withItem_of_error getObjectItem htime hitem']
                  exact .inl ⟨f, rfl, rfl⟩
              | ok s =>
                  simp only [withItem_of_ok getObjectItem htime hitem']
                  exact .inr ⟨_, _, rfl, rfl, rfl, fun _ => cString_store _ _ _ _,
                    fun _ => cString_store_store _ _ _ _⟩

section Frames

variable {myNtohl : (Nat → UInt8) → BitVec 32} {call : FrameCall} {e e' : Surroundings}
variable {type msgType : BitVec 32}

theorem carries_iff : Carries myNtohl call e ↔
    wordAt myNtohl e.recvbuf (e.buf + 4) = call.type ∧
      Begins call.jsonfile (textAt e.recvbuf (e.buf + 8)) := by
  have hlength : ((call.jsonfile.length + 4 : Int) - 4).toNat = call.jsonfile.length := by omega
  simp only [Carries, Receive.processMessageTableDrive, hlength]
  constructor
  · intro h
    exact ⟨congrArg FrameCall.type h, congrArg FrameCall.jsonfile h⟩
  · rintro ⟨htype, hbegins⟩
    cases call
    exact FrameCall.mk.injEq .. ▸ ⟨htype, hbegins⟩

theorem event_of_fun {fn : ProcMsgFun} (hfun : funFor type = some fn)
    (hmsg : idxMsgFor type = some msgType) :
    (fn ≠ .processJsonFun → ¬ IsOneOf jsonEvents msgType) ∧
      (fn = .processJsonFun → msgType ≠ MsgEvent.inquirySystemState.code) := by
  obtain ⟨frameType, hrow, rfl⟩ := mem_of_find_row hfun
  obtain ⟨frameType', hrow', hcode⟩ := mem_of_find_row hmsg
  have htables : ∀ row ∈ msgFlow, ∀ row' ∈ idxMsg, row'.1.code = row.1.code →
      (row.2 ≠ .processJsonFun → ¬ IsOneOf jsonEvents row'.2) ∧
        (row.2 = .processJsonFun → row'.2 ≠ MsgEvent.inquirySystemState.code) := by decide
  exact htables _ hrow _ hrow' hcode

theorem type_of_inquirySystemState
    (hmsg : idxMsgFor type = some MsgEvent.inquirySystemState.code) :
    type = FrameType.systemStateRequest.code := by
  obtain ⟨frameType, hrow, rfl⟩ := mem_of_find_row hmsg
  have htable : ∀ row ∈ idxMsg, row.2 = MsgEvent.inquirySystemState.code →
      row.1 = .systemStateRequest := by decide
  exact congrArg FrameType.code (htable _ hrow rfl)

theorem postMsg_payload {payload : List UInt8} {recvbuf : Memory} {p : Int}
    (hbegins : Begins payload (textAt recvbuf p)) (msgType : BitVec 32) (w : WebMsg)
    (fresh : Memory) :
    ∃ msg, postMsg msgType (some (recvbuf, p)) (payload.length + 4 - 4) w fresh = .ok msg ∧
      msg.msgType = msgType ∧ Begins payload (textAt msg.msgJson 0) := by
  have hbytes : bytesAt recvbuf p payload.length = payload := hbegins
  have hlength : (payload.length + 4 - 4 : Int) = payload.length := by omega
  rw [hlength, postMsg]
  split
  · rename_i hzero
    have hnil : payload = [] := List.eq_nil_of_length_eq_zero (by omega)
    exact ⟨_, rfl, rfl, by simp [Begins, hnil]⟩
  · rw [if_neg (by omega), Int.toNat_natCast, hbytes]
    exact ⟨_, rfl, rfl, bytesAt_store fresh 0 payload⟩

theorem has_localIP_of_ok {t : Text} {w x : WebMsg}
    (hwrites : WritesLocalIP getObjectItem (cJSONParse t))
    (hok : parseRequestJson cJSONParse getObjectItem t w = .ok x) :
    hasObjectItem getObjectItem (cJSONParse t) "localIp" = true := by
  rcases hwrites with hhas | ⟨htime, f, hitem⟩
  · exact hhas
  · by_contra hnone
    rw [Bool.not_eq_true] at hnone
    simp only [parseRequestJson, withItem_of_not_has getObjectItem hnone, bind, Except.bind,
      withItem_of_error getObjectItem htime hitem] at hok
    cases hok

theorem handlerSight_noJson (updateSystemTime : Bool) {root : Option Tree} {x x' : WebMsg}
    (hjson : ¬ IsOneOf jsonEvents msgType) (halike : Alike getObjectItem root x x')
    (hip : msgType = MsgEvent.inquirySystemState.code →
      hasObjectItem getObjectItem root "localIp" = true) (m m' : Memory) :
    handlerSight cJSONParse updateSystemTime ⟨msgType, 0, m, x⟩ =
      handlerSight cJSONParse updateSystemTime ⟨msgType, 0, m', x'⟩ := by
  simp only [handlerSight, hjson, if_false]
  split
  · rename_i hevent
    rw [halike.localIP (hip hevent), halike.bufDataLen]
    congr 1
    split
    · rename_i hset
      rw [halike.currentTime (halike.bufDataLen ▸ hset.2)]
    · rfl
  · rfl

theorem handlerSight_json (updateSystemTime : Bool) {msg msg' : MsgSt}
    (hevent : msg.msgType ≠ MsgEvent.inquirySystemState.code) (htype : msg'.msgType = msg.msgType)
    (htree : cJSONParse (textAt msg.msgJson 0) = cJSONParse (textAt msg'.msgJson 0)) :
    handlerSight cJSONParse updateSystemTime msg =
      handlerSight cJSONParse updateSystemTime msg' := by
  simp only [handlerSight, htype, hevent, if_false, htree]

theorem handlerSight_tree {updateSystemTime : Bool} {msg : MsgSt} {tree : Option Tree}
    (h : (handlerSight cJSONParse updateSystemTime msg).tree = some tree) :
    IsOneOf jsonEvents msg.msgType ∧ tree = cJSONParse (textAt msg.msgJson 0) := by
  unfold handlerSight at h
  split at h
  · cases h
  · split at h
    · rename_i hjson
      exact ⟨hjson, (Option.some.inj h).symm⟩
    · cases h

theorem callFun_alike (updateSystemTime : Bool) {fn : ProcMsgFun} {x x' : WebMsg}
    (hfun : funFor call.type = some fn)
    (hbegins : Begins call.jsonfile (textAt e.recvbuf (e.buf + 8)))
    (hbegins' : Begins call.jsonfile (textAt e'.recvbuf (e'.buf + 8)))
    (hstops : ∀ t t', Begins call.jsonfile t → Begins call.jsonfile t' →
      cJSONParse t = cJSONParse t')
    (halike : Alike getObjectItem (cJSONParse (textAt e.recvbuf (e.buf + 8))) x x')
    (hip : call.type = FrameType.systemStateRequest.code →
      hasObjectItem getObjectItem (cJSONParse (textAt e.recvbuf (e.buf + 8))) "localIp" = true) :
    let seen := Outcome.map (handlerSight cJSONParse updateSystemTime)
    let length : Int := call.jsonfile.length + 4
    ((callFun fn call.type e.recvbuf (e.buf + 8) (length - 4) x e.msgSt).map seen =
      (callFun fn call.type e'.recvbuf (e'.buf + 8) (length - 4) x' e'.msgSt).map seen) ∧
      ∀ handled tree, (callFun fn call.type e.recvbuf (e.buf + 8) (length - 4) x e.msgSt).map seen =
        .ok (.posted handled) → handled.tree = some tree →
          tree = cJSONParse (textAt e.recvbuf (e.buf + 8)) := by
  intro seen length
  cases hmsg : idxMsgFor call.type with
  | none => simp [callFun, hmsg, Except.map, seen, Outcome.map]
  | some msgType =>
      obtain ⟨hnoJson, hjson⟩ := event_of_fun hfun hmsg
      cases fn with
      | processNoJsonFun =>
          have hsystem : msgType = MsgEvent.inquirySystemState.code →
              hasObjectItem getObjectItem (cJSONParse (textAt e.recvbuf (e.buf + 8))) "localIp" =
                true := by
            rintro rfl
            exact hip (type_of_inquirySystemState hmsg)
          have hsame := handlerSight_noJson cJSONParse getObjectItem updateSystemTime
            (hnoJson (by decide)) halike hsystem e.msgSt e'.msgSt
          simp only [callFun, hmsg, postMsg, bind, Except.bind, pure, Except.pure,
            Except.map, seen, Outcome.map, hsame, true_and]
          rintro handled tree hseen htree
          obtain rfl := Outcome.posted.inj (Except.ok.inj hseen)
          exact absurd (handlerSight_tree cJSONParse htree).1 (hnoJson (by decide))
      | processJsonFun =>
          obtain ⟨msg, hpost, htype, hmsgBegins⟩ :=
            postMsg_payload hbegins msgType x e.msgSt
          obtain ⟨msg', hpost', htype', hmsgBegins'⟩ :=
            postMsg_payload hbegins' msgType x' e'.msgSt
          have hsame := handlerSight_json cJSONParse updateSystemTime
            (htype ▸ hjson rfl) (htype'.trans htype.symm) (hstops _ _ hmsgBegins hmsgBegins')
          simp only [callFun, hmsg, length, hpost, hpost', bind, Except.bind, pure,
            Except.pure, Except.map, seen, Outcome.map, hsame, true_and]
          rintro handled tree hseen htree
          obtain rfl := Outcome.posted.inj (Except.ok.inj hseen)
          rw [(handlerSight_tree cJSONParse htree).2]
          exact hstops _ _ hmsgBegins' hbegins
      | fastResponseFun => simp [callFun, hmsg, Except.map, seen, Outcome.map]

theorem dependsOnFrame_of_stops {updateSystemTime : Bool} {gReceive : Nat}
    (hstops : ∀ t t', Begins call.jsonfile t → Begins call.jsonfile t' →
      cJSONParse t = cJSONParse t')
    (hwrites : call.type = FrameType.systemStateRequest.code →
      WritesLocalIP getObjectItem (treeOf cJSONParse call.jsonfile)) :
    DependsOnFrame cJSONParse getObjectItem myNtohl updateSystemTime gReceive call := by
  intro e e' hcarries hcarries'
  obtain ⟨htype, hbegins⟩ := carries_iff.mp hcarries
  obtain ⟨htype', hbegins'⟩ := carries_iff.mp hcarries'
  have hroot := hstops _ _ hbegins hbegins'
  have htree : treeOf cJSONParse call.jsonfile = cJSONParse (textAt e.recvbuf (e.buf + 8)) :=
    hstops _ _ (begins_textOf _) hbegins
  simp only [sight, processMessageTableDrive, htype, htype']
  rcases parseRequestJson_alike cJSONParse getObjectItem hroot
    { e.webMsg with pointAddr1 := gReceive } { e'.webMsg with pointAddr1 := gReceive } with
    ⟨f, hfault, hfault'⟩ | ⟨x, x', hok, hok', halike⟩
  · simp [hfault, hfault', hroot, bind, Except.bind, Except.map]
  · simp only [hok, hok', hroot, bind, Except.bind]
    cases hfun : funFor call.type with
    | none => simp [Except.map, pure, Except.pure, Outcome.map]
    | some fn =>
        have hip : call.type = FrameType.systemStateRequest.code →
            hasObjectItem getObjectItem (cJSONParse (textAt e.recvbuf (e.buf + 8))) "localIp" =
              true := fun hsystem =>
          has_localIP_of_ok cJSONParse getObjectItem (htree ▸ hwrites hsystem) hok
        obtain ⟨hsame, hagree⟩ := callFun_alike cJSONParse getObjectItem
          updateSystemTime hfun hbegins hbegins' hstops halike hip
        exact ⟨by rw [hsame], hroot ▸ hagree⟩

/-- Memory that holds a frame of this type at 0, with the text from the payload on. -/
def layFrame (type : BitVec 32) (t : Text) : Memory := fun i =>
  if i < 8 then (htonl type).getD (i - 4).toNat 0 else t (i - 8).toNat

theorem textAt_layFrame (type : BitVec 32) (t : Text) : textAt (layFrame type t) 8 = t := by
  funext i
  rw [textAt, layFrame, if_neg (by omega)]
  congr 1
  omega

theorem carries_layFrame (hntohl : ReadsBigEndian myNtohl) {t : Text}
    (hbegins : Begins call.jsonfile t) (webMsg : WebMsg) (msgSt : Memory) :
    Carries myNtohl call { recvbuf := layFrame call.type t, buf := 0, webMsg, msgSt } := by
  refine carries_iff.mpr ⟨?_, ?_⟩
  · rw [wordAt, hntohl]
    exact ReceiveDeframing.headWord_htonl call.type []
  · change Begins call.jsonfile (textAt (layFrame call.type t) 8)
    rw [textAt_layFrame]
    exact hbegins

theorem stops_of_dependsOnFrame (hntohl : ReadsBigEndian myNtohl) {updateSystemTime : Bool}
    {gReceive : Nat}
    (h : DependsOnFrame cJSONParse getObjectItem myNtohl updateSystemTime gReceive call)
    {t t' : Text}
    (hbegins : Begins call.jsonfile t) (hbegins' : Begins call.jsonfile t') :
    cJSONParse t = cJSONParse t' := by
  let w : WebMsg := ⟨-1, gReceive, none, 0, fun _ => 0⟩
  have hsame := (h _ _ (carries_layFrame hntohl hbegins w fun _ => 0)
    (carries_layFrame hntohl hbegins' w fun _ => 0)).1
  have hrequest := congrArg Sight.request hsame
  simpa only [sight, Int.zero_add, textAt_layFrame] using hrequest

/-- Without `localIp` the first byte of `localIP` is what `malloc` left there. -/
theorem localIP_left {t : Text} {w : WebMsg}
    (hnot : ¬ WritesLocalIP getObjectItem (cJSONParse t)) :
    ∃ x, parseRequestJson cJSONParse getObjectItem t w = .ok x ∧ x.strings 0 = w.strings 0 := by
  obtain ⟨hip, htime⟩ := not_or.mp hnot
  rw [Bool.not_eq_true] at hip
  simp only [parseRequestJson, withItem_of_not_has getObjectItem hip, bind, Except.bind]
  cases hhas : hasObjectItem getObjectItem (cJSONParse t) "currentTime" with
  | false => exact ⟨_, withItem_of_not_has getObjectItem hhas _ _, rfl⟩
  | true =>
      cases hitem : itemString getObjectItem (cJSONParse t) "currentTime" with
      | error f => exact absurd ⟨hhas, f, hitem⟩ htime
      | ok s =>
          refine ⟨_, withItem_of_ok getObjectItem hhas hitem _ _, ?_⟩
          change store w.strings 128 (stringBytes s ++ [0]) 0 = w.strings 0
          exact store_outside (.inl (by decide))

theorem localIP_seen (hntohl : ReadsBigEndian myNtohl) (updateSystemTime : Bool)
    (gReceive : Nat) (hsystem : call.type = FrameType.systemStateRequest.code) {t : Text}
    (hbegins : Begins call.jsonfile t) (hnot : ¬ WritesLocalIP getObjectItem (cJSONParse t))
    (w : WebMsg) :
    ∃ handled m, (sight cJSONParse getObjectItem myNtohl updateSystemTime gReceive
        (call.jsonfile.length + 4) ⟨layFrame call.type t, 0, w, fun _ => 0⟩).outcome =
          .ok (.posted handled) ∧
      handled.localIP = some (cString m 0) ∧ m 0 = w.strings 0 := by
  have htype : wordAt myNtohl (layFrame FrameType.systemStateRequest.code t) 4 =
      FrameType.systemStateRequest.code :=
    hsystem ▸ (carries_iff.mp (carries_layFrame hntohl hbegins w fun _ => 0)).1
  obtain ⟨x, hok, hleft⟩ := localIP_left cJSONParse getObjectItem
    (w := { w with pointAddr1 := gReceive }) hnot
  rw [← textAt_layFrame FrameType.systemStateRequest.code t] at hok
  have hfun : funFor FrameType.systemStateRequest.code = some .processNoJsonFun := by decide
  have hmsg : idxMsgFor FrameType.systemStateRequest.code =
      some MsgEvent.inquirySystemState.code := by decide
  refine ⟨handlerSight cJSONParse updateSystemTime
    ⟨MsgEvent.inquirySystemState.code, 0, fun _ => 0, x⟩, x.strings, ?_, ?_, hleft⟩
  · simp only [sight, processMessageTableDrive, hsystem, Int.zero_add, htype, hok, hfun, callFun,
      hmsg, postMsg, bind, Except.bind, pure, Except.pure, Except.map, Outcome.map]
  · simp [handlerSight]

theorem writes_of_dependsOnFrame (hntohl : ReadsBigEndian myNtohl)
    {updateSystemTime : Bool} {gReceive : Nat}
    (h : DependsOnFrame cJSONParse getObjectItem myNtohl updateSystemTime gReceive call)
    (hsystem : call.type = FrameType.systemStateRequest.code) :
    WritesLocalIP getObjectItem (treeOf cJSONParse call.jsonfile) := by
  by_contra hnot
  have hbegins := begins_textOf call.jsonfile
  let w : UInt8 → WebMsg := fun b => ⟨-1, gReceive, none, 0, fun _ => b⟩
  obtain ⟨handled, m, hzero, hip, hm⟩ := localIP_seen cJSONParse getObjectItem hntohl
    updateSystemTime gReceive hsystem hbegins hnot (w 0)
  obtain ⟨handled', m', hone, hip', hm'⟩ := localIP_seen cJSONParse getObjectItem hntohl
    updateSystemTime gReceive hsystem hbegins hnot (w 1)
  have hsame := congrArg Sight.outcome (h _ _ (carries_layFrame hntohl hbegins (w 0) fun _ => 0)
    (carries_layFrame hntohl hbegins (w 1) fun _ => 0)).1
  rw [hzero, hone] at hsame
  obtain rfl := Outcome.posted.inj (Except.ok.inj hsame)
  have hstring := congrFun (Option.some.inj (hip.symm.trans hip')) 0
  simp [cString, hm, hm', w] at hstring

end Frames

/-- What a frame does depends on its own bytes alone if and only if its payload brings
the text to its end for `cJSON_Parse`, and, for a `TYPE_SYSTEM_STATE_REQUEST`, the tree
has `localIp`. -/
theorem dependsOnFrame_iff (hparse : ReadsJson cJSONParse) {myNtohl : (Nat → UInt8) → BitVec 32}
    (hntohl : ReadsBigEndian myNtohl) (updateSystemTime : Bool) (gReceive : Nat)
    (call : FrameCall) :
    DependsOnFrame cJSONParse getObjectItem myNtohl updateSystemTime gReceive call ↔
      (Finished call.jsonfile ∨ IdleExponent cJSONParse call.jsonfile) ∧
        (call.type = FrameType.systemStateRequest.code →
          WritesLocalIP getObjectItem (treeOf cJSONParse call.jsonfile)) := by
  rw [← hparse.fixed_iff]
  constructor
  · intro h
    exact ⟨fun t t' => stops_of_dependsOnFrame cJSONParse getObjectItem hntohl h,
      writes_of_dependsOnFrame cJSONParse getObjectItem hntohl h⟩
  · rintro ⟨hstops, hwrites⟩
    exact dependsOnFrame_of_stops cJSONParse getObjectItem hstops hwrites

end Requests

def inquiry : List UInt8 := stringBytes "\x7b\"localIp\":\"10.0.0.2\"\x7d"

def inquiryTree : CJson := fun key =>
  if key = "localIp" then some { valueint := 0, valuestring := some "10.0.0.2" } else none

def emptyObject : List UInt8 := stringBytes "\x7b\x7d"

/-- The tree of a text that holds what the inquiry holds, or no items. -/
def treeOfText (text : List UInt8) : CJson := if text = inquiry then inquiryTree else fun _ => none

/-- The inquiry of a page that sends its address. -/
theorem dependsOnFrame_inquiry :
    DependsOnFrame (parseJson treeOfText) id readNetworkWord true 0
      { type := FrameType.systemStateRequest.code, jsonfile := inquiry } := by
  have hcomplete : scan inquiry = .complete := by decide
  have htree : treeOf (parseJson treeOfText) inquiry = some inquiryTree :=
    parseJson_of_value treeOfText hcomplete (by decide) (begins_textOf inquiry)
  refine (dependsOnFrame_iff _ id (parseJson_readsJson treeOfText)
    readNetworkWord_readsBigEndian true 0 _).mpr ⟨.inl (.inl hcomplete), fun _ => .inl ?_⟩
  rw [htree]
  rfl

/-- An inquiry without `localIp`: the handler reads what `malloc` left in `localIP`. A
frame of JSON that has no payload: what lies behind it in `recvbuf` is its tree. -/
theorem sight_of_left_memory :
    ¬ DependsOnFrame (parseJson treeOfText) id readNetworkWord true 0
        { type := FrameType.systemStateRequest.code, jsonfile := emptyObject } ∧
      ¬ DependsOnFrame (parseJson treeOfText) id readNetworkWord true 0
        { type := FrameType.rssiControl.code, jsonfile := [] } := by
  constructor
  · intro h
    have hcomplete : scan emptyObject = .complete := by decide
    have htree : treeOf (parseJson treeOfText) emptyObject = some fun _ => none :=
      parseJson_of_value treeOfText hcomplete (by decide) (begins_textOf emptyObject)
    have hwrites := writes_of_dependsOnFrame _ id readNetworkWord_readsBigEndian h rfl
    rw [htree] at hwrites
    rcases hwrites with hip | ⟨htime, -⟩
    · cases hip
    · cases htime
  · intro h
    have hsettled := ((parseJson_readsJson treeOfText).fixed_iff []).mp fun t t' =>
      stops_of_dependsOnFrame _ id readNetworkWord_readsBigEndian h
    rcases hsettled with hfinished | hidle
    · exact absurd hfinished (by decide)
    · exact absurd hidle.1 (by decide)

end GwWeb.RequestParsing
