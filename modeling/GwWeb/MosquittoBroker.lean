import GwWeb.Server
import GwWeb.WebCommon

/-!
The RSSI part of `mosquitto_broker.c`. A node is named by its address; a node
that was unlinked but not freed is only known to its write thread.
-/

namespace GwWeb.MosquittoBroker

open FirstMatch
open GwWeb.Server
open GwWeb.WebCommon

/-- `dst` and `timer` of a control request. -/
structure ControlJson where
  dst : String
  timer : String
  deriving DecidableEq, Repr

/-- What `dev_transfer` returns: its code, `stat_buf_len`, and the `stat` string
of the answer. -/
structure TransferReply where
  ret : Int
  statBufLen : Int
  stat : Option String
  deriving DecidableEq, Repr

/-- The part of `g_broker_para` for RSSI. The fields `rssi_file_t` (in `save`) and
`confirm_delete` of a node are kept by its address; `transfers` lists the
`dev_transfer` calls made, the last one first. -/
structure GBrokerPara where
  enableCallback : Int
  rssiState : Int
  rssiUserCnt : Int
  rssiUserNodeHead : List UserNode
  confirmDelete : Nat → Int
  allocated : Nat
  freed : List Nat
  save : WriteComponent
  rssiOpenJson : ControlJson
  rssiCloseJson : ControlJson
  transfers : List (ControlJson × TransferReply)

def createBroker (rssiOpenJson rssiCloseJson : ControlJson) : GBrokerPara :=
  { enableCallback := 0, rssiState := 0, rssiUserCnt := 0, rssiUserNodeHead := [],
    confirmDelete := fun _ => 0, allocated := 0, freed := [], save := .empty, rssiOpenJson,
    rssiCloseJson, transfers := [] }

/-- The first user node with this `connfd`. -/
def findNode (connfd : Int) (g : GBrokerPara) : Option UserNode :=
  g.rssiUserNodeHead.find? fun n => n.connfd = connfd

def controlRssiState (buf : ControlJson) (reply : TransferReply) (g : GBrokerPara) :
    Except Fault (Int × GBrokerPara) :=
  let g := { g with transfers := (buf, reply) :: g.transfers }
  if reply.ret = 0 ∧ 0 < reply.statBufLen then
    let g := { g with rssiState := if buf.timer = "0" then 0 else 1 }
    match reply.stat with
    | none => .error .nullPointer
    | some stat => .ok (if stat = "0" then 0 else -1, g)
  else .ok (-1, g)

/-- `dev_transfer` brought an answer. -/
def TransferReply.Delivered (reply : TransferReply) : Prop := reply.ret = 0 ∧ 0 < reply.statBufLen

instance (reply : TransferReply) : Decidable reply.Delivered :=
  inferInstanceAs (Decidable (_ ∧ _))

/-- What `control_rssi_state` returns. -/
def TransferReply.code (reply : TransferReply) : Int :=
  if reply.Delivered ∧ reply.stat = some "0" then 0 else -1

/-- The broker behind a `control_rssi_state` that returns. -/
def controlled (buf : ControlJson) (reply : TransferReply) (g : GBrokerPara) : GBrokerPara :=
  { g with
    transfers := (buf, reply) :: g.transfers
    rssiState := if reply.Delivered then if buf.timer = "0" then 0 else 1 else g.rssiState }

theorem controlRssiState_eq_ok_iff {buf : ControlJson} {reply : TransferReply}
    {g : GBrokerPara} {out : Int × GBrokerPara} :
    controlRssiState buf reply g = .ok out ↔
      (reply.Delivered → reply.stat.isSome) ∧ out = (reply.code, controlled buf reply g) := by
  unfold controlRssiState controlled TransferReply.code
  by_cases hdelivered : reply.Delivered
  · simp only [TransferReply.Delivered] at hdelivered
    rcases hstat : reply.stat with _ | stat
    · simp [TransferReply.Delivered, hdelivered]
    · rw [eq_comm (a := out)]
      simp [TransferReply.Delivered, hdelivered]
  · simp only [TransferReply.Delivered] at hdelivered
    rw [eq_comm (a := out)]
    simp [TransferReply.Delivered, hdelivered]

/-- The new node `open_rssi_state_external` puts at the tail of the list. -/
def addRssiUserNode (connfd : Int) (g : GBrokerPara) : GBrokerPara :=
  { g with
    rssiUserNodeHead := g.rssiUserNodeHead ++ [{ addr := g.allocated, connfd }]
    confirmDelete := Function.update g.confirmDelete g.allocated 0
    save := g.save.setFileT g.allocated none
    allocated := g.allocated + 1
    rssiUserCnt := g.rssiUserCnt + 1 }

def openRssiStateExternal (connfd : Int) (reply : TransferReply) (g : GBrokerPara) :
    Except Fault (Int × GBrokerPara) :=
  if g.rssiUserCnt = 0 ∧ g.rssiState = 0 then do
    let (ret, g) ← controlRssiState g.rssiOpenJson reply g
    if ret ≠ 0 then return (-1, g)
    else return (0, addRssiUserNode connfd g)
  else return (0, addRssiUserNode connfd g)

/-- What `close_rssi_state_external` does to `pnode` behind its loop. -/
def releaseNode (pnode : Option UserNode) (g : GBrokerPara) : Except Fault GBrokerPara :=
  match pnode with
  | none => .ok g
  | some n =>
      if g.confirmDelete n.addr = 0 then
        match g.save.fileT n.addr with
        | none => .ok { g with freed := n.addr :: g.freed }
        | some _ => .ok { g with confirmDelete := Function.update g.confirmDelete n.addr 1 }
      else .error .assertion

theorem openRssiStateExternal_ok {connfd : Int} {reply : TransferReply} {g : GBrokerPara}
    {out : Int × GBrokerPara} (h : openRssiStateExternal connfd reply g = .ok out) :
    out =
      if g.rssiUserCnt = 0 ∧ g.rssiState = 0 then
        if reply.code = 0 then (0, addRssiUserNode connfd (controlled g.rssiOpenJson reply g))
        else (-1, controlled g.rssiOpenJson reply g)
      else (0, addRssiUserNode connfd g) := by
  unfold openRssiStateExternal at h
  split at h
  · rename_i hidle
    simp only [bind_eq_ok, controlRssiState_eq_ok_iff] at h
    obtain ⟨_, ⟨-, rfl⟩, h⟩ := h
    rw [if_pos hidle]
    split at h
    · rename_i hcode
      rw [if_neg hcode]
      exact (Except.ok.inj h).symm
    · rename_i hcode
      rw [if_pos (not_not.mp hcode)]
      exact (Except.ok.inj h).symm
  · rename_i hbusy
    rw [if_neg hbusy]
    exact (Except.ok.inj h).symm

theorem releaseNode_ok {pnode : Option UserNode} {g g' : GBrokerPara}
    (h : releaseNode pnode g = .ok g') :
    ∃ freed confirmDelete, g' = { g with freed, confirmDelete } := by
  unfold releaseNode at h
  split at h
  · exact ⟨_, _, (Except.ok.inj h).symm⟩
  · split at h
    · split at h
      · exact ⟨_, _, (Except.ok.inj h).symm⟩
      · exact ⟨_, _, (Except.ok.inj h).symm⟩
    · cases h

/-- The first half of `close_rssi_state_external`. -/
def unlinkRssiUserNode (connfd : Int) (g : GBrokerPara) : Except Fault GBrokerPara :=
  let loop := unlinkLoop (fun n => n.connfd = connfd) g.rssiUserNodeHead none
  releaseNode loop.cursor
    { g with
      rssiUserNodeHead := loop.list
      rssiUserCnt := if loop.found then g.rssiUserCnt - 1 else g.rssiUserCnt }

def closeRssiStateExternal (connfd : Int) (reply : TransferReply) (g : GBrokerPara) :
    Except Fault GBrokerPara := do
  let g ← unlinkRssiUserNode connfd g
  if g.rssiUserCnt = 0 ∧ g.rssiState = 1 then do
    let (_, g) ← controlRssiState g.rssiCloseJson reply g
    return g
  else return g

theorem unlinkRssiUserNode_ok {connfd : Int} {g g' : GBrokerPara}
    (h : unlinkRssiUserNode connfd g = .ok g') :
    ∃ freed confirmDelete,
      g' =
        { g with
          rssiUserNodeHead := g.rssiUserNodeHead.eraseP fun n => n.connfd = connfd
          rssiUserCnt :=
            if g.rssiUserNodeHead.any fun n => n.connfd = connfd then g.rssiUserCnt - 1
            else g.rssiUserCnt
          freed
          confirmDelete } := by
  obtain ⟨freed, confirmDelete, rfl⟩ := releaseNode_ok h
  refine ⟨freed, confirmDelete, ?_⟩
  simp only [unlinkLoop_list, unlinkLoop_found]

/-- The broker behind the transfer that stops the samples, if nobody is left. -/
def closed (reply : TransferReply) (g : GBrokerPara) : GBrokerPara :=
  if g.rssiUserCnt = 0 ∧ g.rssiState = 1 then controlled g.rssiCloseJson reply g else g

theorem closeRssiStateExternal_eq_ok_iff {connfd : Int} {reply : TransferReply}
    {g g' : GBrokerPara} :
    closeRssiStateExternal connfd reply g = .ok g' ↔
      ∃ g₁, unlinkRssiUserNode connfd g = .ok g₁ ∧ g' = closed reply g₁ ∧
        (g₁.rssiUserCnt = 0 ∧ g₁.rssiState = 1 → reply.Delivered → reply.stat.isSome) := by
  unfold closeRssiStateExternal closed
  rw [bind_eq_ok]
  apply exists_congr
  intro g₁
  apply and_congr_right
  intro _
  split
  · rename_i hlast
    simp only [bind_eq_ok, controlRssiState_eq_ok_iff, hlast, true_and, true_implies]
    constructor
    · rintro ⟨out, ⟨hstat, rfl⟩, hout⟩
      exact ⟨(Except.ok.inj hout).symm, hstat⟩
    · rintro ⟨rfl, hstat⟩
      exact ⟨_, ⟨hstat, rfl⟩, rfl⟩
  · rename_i hlast
    rw [eq_comm (a := g')]
    simp [hlast, pure, Except.pure]

/-- The sessions `send_rssi_in_event_loop` hands one sample to, in order. -/
def sendRssiInEventLoop (server : GServerPara) (g : GBrokerPara) : List UserSessionNode :=
  g.rssiUserNodeHead.filterMap fun n => findUserNodeByConnfd n.connfd server

def typeRssiControl : Int := 43

def processRssiSaveFile (connfd : Int) (root : CJson) (r : SaveReplies) (g : GBrokerPara) :
    Except Fault (Int × GBrokerPara) := do
  let type ← valueint root "type"
  if type ≠ typeRssiControl then return (-1, g)
  else
    match findNode connfd g with
    | none => return (-2, g)
    | some n => do
        let save :=
          match g.save.fileT n.addr with
          | none => g.save.setFileT n.addr (some .fresh)
          | some _ => g.save
        let (ret, save) ← saveCommand (-1) n.addr root r save
        return (ret, { g with save })

/-- The bytes of an `int`, the lowest first. -/
def int32Bytes (x : Int) : List UInt8 :=
  [UInt8.ofInt x, UInt8.ofInt (x / 256), UInt8.ofInt (x / 65536), UInt8.ofInt (x / 16777216)]

/-- `rssi_priv`, with whatever follows it in memory. -/
structure RssiPriv where
  tvSec : Int
  tvUsec : Int
  rssiBufLen : Int
  rssiBuf : Nat → UInt8

/-- The record `send_rssi_to_save` builds for each node: three words and the
data. No block has a negative length, or one above `INT_MAX`. -/
def rssiRecord (msg : RssiPriv) : Except Fault (List UInt8) :=
  if 0 ≤ msg.rssiBufLen ∧ 12 + msg.rssiBufLen < 2147483648 then
    .ok (int32Bytes msg.tvSec ++ int32Bytes msg.tvUsec ++ int32Bytes msg.rssiBufLen ++
      (List.range msg.rssiBufLen.toNat).map msg.rssiBuf)
  else .error .badLength

def sendRssiToSave (msg : RssiPriv) (r : SaveReplies) (g : GBrokerPara) :
    Except Fault GBrokerPara := do
  let save ← sendToSave (rssiRecord msg) true r (g.rssiUserNodeHead.map UserNode.addr) g.save
  return { g with save }

def informStopRssiWriteThread (connfd : Int) (r : SaveReplies) (g : GBrokerPara) :
    Except Fault GBrokerPara :=
  match findNode connfd g with
  | none => .ok g
  | some n => do
      let save ← informStop n.addr r g.save
      return { g with save }

def clearRssiWriteStatus (node : Nat) (g : GBrokerPara) : Except Fault GBrokerPara := do
  let save ← clearWriteStatus g.freed node g.save
  if g.confirmDelete node = 1 then return { g with save, freed := node :: g.freed }
  else return { g with save }

/-- One step of the `rssi_write_thread` of start command `k`. -/
def rssiWriteThread (k : Nat) (g : GBrokerPara) : Except Fault GBrokerPara := do
  let save ← writeThread g.freed k g.save
  return { g with save }

theorem processRssiSaveFile_ok {connfd : Int} {root : CJson} {r : SaveReplies}
    {g g' : GBrokerPara} {ret : Int} (h : processRssiSaveFile connfd root r g = .ok (ret, g')) :
    ∃ save, g' = { g with save } := by
  obtain ⟨type, -, h⟩ := bind_eq_ok.mp h
  split at h
  · exact ⟨g.save, (Prod.mk.inj (Except.ok.inj h)).2.symm⟩
  · split at h
    · exact ⟨g.save, (Prod.mk.inj (Except.ok.inj h)).2.symm⟩
    · obtain ⟨out, -, hg'⟩ := bind_eq_ok.mp h
      exact ⟨out.2, (Prod.mk.inj (Except.ok.inj hg')).2.symm⟩

theorem sendRssiToSave_ok {msg : RssiPriv} {r : SaveReplies} {g g' : GBrokerPara}
    (h : sendRssiToSave msg r g = .ok g') : ∃ save, g' = { g with save } := by
  obtain ⟨save, -, hg'⟩ := bind_eq_ok.mp h
  exact ⟨save, (Except.ok.inj hg').symm⟩

theorem rssiWriteThread_ok {k : Nat} {g g' : GBrokerPara} (h : rssiWriteThread k g = .ok g') :
    ∃ save, g' = { g with save } := by
  obtain ⟨save, -, hg'⟩ := bind_eq_ok.mp h
  exact ⟨save, (Except.ok.inj hg').symm⟩

theorem clearRssiWriteStatus_ok {node : Nat} {g g' : GBrokerPara}
    (h : clearRssiWriteStatus node g = .ok g') : ∃ save freed, g' = { g with save, freed } := by
  obtain ⟨save, -, h⟩ := bind_eq_ok.mp h
  split at h
  · exact ⟨save, _, (Except.ok.inj h).symm⟩
  · exact ⟨save, _, (Except.ok.inj h).symm⟩

end GwWeb.MosquittoBroker
