import GwWeb.FirstMatch
import GwWeb.WebCommon

/-!
The user lists of `dma_handler.c`: CSI display, CSI save and constellation, and
the device they share.
-/

namespace GwWeb.DmaHandler

open FirstMatch
open GwWeb.WebCommon

/-- What was asked of the device through `p_axidma`, with its return codes. -/
inductive AxidmaCommand where
  | start (chan rc : Int)
  | stop (rc : Int)
  deriving DecidableEq, Repr

/-- The part of `g_dma_para` that the event loop works on. `csiCommands` and
`constellationCommands` list the commands each module issued, the last first. -/
structure GDmaPara where
  enableCallback : Int
  pAxidma : Bool
  csiState : Int
  csiUserCnt : Int
  csiSaveUserCnt : Int
  constellationState : Int
  constellationUserCnt : Int
  csiUserNodeHead : List UserNode
  csiSaveUserNodeHead : List UserNode
  constellUserNodeHead : List UserNode
  csiSpectrumBuf : List UInt8
  allocated : Nat
  csiFreed : List Nat
  csiSaveFreed : List Nat
  constellFreed : List Nat
  save : WriteComponent
  csiCommands : List AxidmaCommand
  constellationCommands : List AxidmaCommand

/-- `create_dma_handler`; it fails when `axidma_open` does. -/
def createDmaHandler (axidmaOpen : Bool) : Option GDmaPara :=
  if axidmaOpen then
    some
      { enableCallback := 0, pAxidma := true, csiState := 0, csiUserCnt := 0, csiSaveUserCnt := 0,
        constellationState := 0, constellationUserCnt := 0, csiUserNodeHead := [],
        csiSaveUserNodeHead := [], constellUserNodeHead := [], csiSpectrumBuf := [],
        allocated := 0, csiFreed := [], csiSaveFreed := [], constellFreed := [], save := .empty,
        csiCommands := [], constellationCommands := [] }
  else none

/-- The two messages with samples that the IQ callback posts. -/
inductive IqMessage where
  | csiReady (json : List UInt8)
  | constellationReady (data : List UInt8)
  deriving DecidableEq, Repr

/-- `IQ_register_callback`; `buf` is what stands behind the eight empty bytes. -/
def iqRegisterCallback (buf : List UInt8) (g : GDmaPara) : Option IqMessage :=
  if g.csiState = 1 ∧ g.constellationState = 0 then
    if 1024 ≤ buf.length then some (.csiReady (buf.take 1024)) else none
  else if g.constellationState = 1 ∧ g.csiState = 0 then
    some (.constellationReady (buf.take (if 2000 < buf.length then 2000 else buf.length)))
  else none

/-- What `axidma_chan` and `axidma_start` return. -/
structure StartReply where
  chan : Int
  start : Int
  deriving DecidableEq, Repr

def startCsi (r : StartReply) (g : GDmaPara) : Int × GDmaPara :=
  if g.pAxidma then
    (r.start, { g with csiState := 1, csiCommands := .start r.chan r.start :: g.csiCommands })
  else (-1, { g with csiState := 0 })

/-- `stop_csi`, whose return value is not used. -/
def stopCsi (rc : Int) (g : GDmaPara) : GDmaPara :=
  if g.pAxidma then { g with csiState := 0, csiCommands := .stop rc :: g.csiCommands }
  else { g with csiState := 0 }

theorem startCsi_eq (r : StartReply) (g : GDmaPara) :
    startCsi r g =
      (if g.pAxidma then r.start else -1,
        { g with
          csiState := if g.pAxidma then 1 else 0
          csiCommands :=
            if g.pAxidma then .start r.chan r.start :: g.csiCommands else g.csiCommands }) := by
  unfold startCsi
  split <;> rfl

theorem stopCsi_eq (rc : Int) (g : GDmaPara) :
    stopCsi rc g =
      { g with
        csiState := 0
        csiCommands := if g.pAxidma then .stop rc :: g.csiCommands else g.csiCommands } := by
  unfold stopCsi
  split <;> rfl

/-- `find_csi_user_node`: the first node with this `connfd`. -/
def findCsiUserNode (connfd : Int) (g : GDmaPara) : Option UserNode :=
  g.csiUserNodeHead.find? fun n => n.connfd = connfd

/-- The second half of `start_csi_state_external`. -/
def addCsiUserNode (connfd : Int) (g : GDmaPara) : GDmaPara :=
  match findCsiUserNode connfd g with
  | none =>
      { g with
        csiUserNodeHead := g.csiUserNodeHead ++ [{ addr := g.allocated, connfd }]
        allocated := g.allocated + 1
        csiUserCnt := g.csiUserCnt + 1 }
  | some _ => g

theorem addCsiUserNode_eq (connfd : Int) (g : GDmaPara) :
    addCsiUserNode connfd g =
      { g with
        csiUserNodeHead :=
          if (findCsiUserNode connfd g).isSome then g.csiUserNodeHead
          else g.csiUserNodeHead ++ [{ addr := g.allocated, connfd }]
        allocated :=
          if (findCsiUserNode connfd g).isSome then g.allocated else g.allocated + 1
        csiUserCnt :=
          if (findCsiUserNode connfd g).isSome then g.csiUserCnt else g.csiUserCnt + 1 } := by
  unfold addCsiUserNode
  cases findCsiUserNode connfd g <;> rfl

def startCsiStateExternal (connfd : Int) (r : StartReply) (g : GDmaPara) : Int × GDmaPara :=
  if g.csiUserCnt = 0 ∧ g.csiState = 0 then
    let (state, g) := startCsi r g
    if state ≠ 0 then (-1, g) else (0, addCsiUserNode connfd g)
  else (0, addCsiUserNode connfd g)

/-- `stop_csi_state_external`: the unlinking loop, then `free` of what its cursor points to. -/
def stopCsiStateExternal (connfd : Int) (rc : Int) (g : GDmaPara) : GDmaPara :=
  let loop := unlinkLoop (fun n => n.connfd = connfd) g.csiUserNodeHead none
  let g := { g with
    csiUserNodeHead := loop.list
    csiUserCnt := if loop.found then g.csiUserCnt - 1 else g.csiUserCnt
    csiFreed := (loop.cursor.map UserNode.addr).toList ++ g.csiFreed }
  if g.csiUserCnt = 0 ∧ g.csiState = 1 then stopCsi rc g else g

theorem stopCsiStateExternal_eq (connfd rc : Int) (g : GDmaPara) :
    stopCsiStateExternal connfd rc g =
      let loop := unlinkLoop (fun n => n.connfd = connfd) g.csiUserNodeHead none
      let cnt := if loop.found then g.csiUserCnt - 1 else g.csiUserCnt
      let last := cnt = 0 ∧ g.csiState = 1
      { g with
        csiUserNodeHead := loop.list
        csiUserCnt := cnt
        csiFreed := (loop.cursor.map UserNode.addr).toList ++ g.csiFreed
        csiState := if last then 0 else g.csiState
        csiCommands :=
          if last ∧ g.pAxidma then .stop rc :: g.csiCommands else g.csiCommands } := by
  simp only [stopCsiStateExternal, stopCsi_eq]
  generalize unlinkLoop (fun n => decide (n.connfd = connfd)) g.csiUserNodeHead none = loop
  generalize (if loop.found = true then g.csiUserCnt - 1 else g.csiUserCnt) = cnt
  by_cases hlast : cnt = 0 ∧ g.csiState = 1
  · simp only [hlast, and_self, true_and, if_true]
  · simp only [hlast, false_and, if_false]

def startConstellation (r : StartReply) (g : GDmaPara) : Int × GDmaPara :=
  if g.pAxidma then
    (r.start, { g with
      constellationState := 1
      constellationCommands := .start r.chan r.start :: g.constellationCommands })
  else (-1, { g with constellationState := 0 })

def stopConstellation (rc : Int) (g : GDmaPara) : GDmaPara :=
  if g.pAxidma then
    { g with
      constellationState := 0
      constellationCommands := .stop rc :: g.constellationCommands }
  else { g with constellationState := 0 }

theorem startConstellation_eq (r : StartReply) (g : GDmaPara) :
    startConstellation r g =
      (if g.pAxidma then r.start else -1,
        { g with
          constellationState := if g.pAxidma then 1 else 0
          constellationCommands :=
            if g.pAxidma then .start r.chan r.start :: g.constellationCommands
            else g.constellationCommands }) := by
  unfold startConstellation
  split <;> rfl

theorem stopConstellation_eq (rc : Int) (g : GDmaPara) :
    stopConstellation rc g =
      { g with
        constellationState := 0
        constellationCommands :=
          if g.pAxidma then .stop rc :: g.constellationCommands
          else g.constellationCommands } := by
  unfold stopConstellation
  split <;> rfl

def findConstellUserNode (connfd : Int) (g : GDmaPara) : Option UserNode :=
  g.constellUserNodeHead.find? fun n => n.connfd = connfd

/-- The second half of `start_constellation_external`. -/
def addConstellUserNode (connfd : Int) (g : GDmaPara) : GDmaPara :=
  match findConstellUserNode connfd g with
  | none =>
      { g with
        constellUserNodeHead := g.constellUserNodeHead ++ [{ addr := g.allocated, connfd }]
        allocated := g.allocated + 1
        constellationUserCnt := g.constellationUserCnt + 1 }
  | some _ => g

theorem addConstellUserNode_eq (connfd : Int) (g : GDmaPara) :
    addConstellUserNode connfd g =
      { g with
        constellUserNodeHead :=
          if (findConstellUserNode connfd g).isSome then g.constellUserNodeHead
          else g.constellUserNodeHead ++ [{ addr := g.allocated, connfd }]
        allocated :=
          if (findConstellUserNode connfd g).isSome then g.allocated else g.allocated + 1
        constellationUserCnt :=
          if (findConstellUserNode connfd g).isSome then g.constellationUserCnt
          else g.constellationUserCnt + 1 } := by
  unfold addConstellUserNode
  cases findConstellUserNode connfd g <;> rfl

/-- `start_constellation_external`. Unlike its CSI twin it does not look at what
`start_constellation` returned. -/
def startConstellationExternal (connfd : Int) (r : StartReply) (g : GDmaPara) :
    Int × GDmaPara :=
  if g.constellationUserCnt = 0 ∧ g.constellationState = 0 then
    (0, addConstellUserNode connfd (startConstellation r g).2)
  else (0, addConstellUserNode connfd g)

/-- `stop_constellation_external`, like `stop_csi_state_external`. -/
def stopConstellationExternal (connfd : Int) (rc : Int) (g : GDmaPara) : GDmaPara :=
  let loop := unlinkLoop (fun n => n.connfd = connfd) g.constellUserNodeHead none
  let g := { g with
    constellUserNodeHead := loop.list
    constellationUserCnt :=
      if loop.found then g.constellationUserCnt - 1 else g.constellationUserCnt
    constellFreed := (loop.cursor.map UserNode.addr).toList ++ g.constellFreed }
  if g.constellationUserCnt = 0 ∧ g.constellationState = 1 then stopConstellation rc g else g

theorem stopConstellationExternal_eq (connfd rc : Int) (g : GDmaPara) :
    stopConstellationExternal connfd rc g =
      let loop := unlinkLoop (fun n => n.connfd = connfd) g.constellUserNodeHead none
      let cnt := if loop.found then g.constellationUserCnt - 1 else g.constellationUserCnt
      let last := cnt = 0 ∧ g.constellationState = 1
      { g with
        constellUserNodeHead := loop.list
        constellationUserCnt := cnt
        constellFreed := (loop.cursor.map UserNode.addr).toList ++ g.constellFreed
        constellationState := if last then 0 else g.constellationState
        constellationCommands :=
          if last ∧ g.pAxidma then .stop rc :: g.constellationCommands
          else g.constellationCommands } := by
  simp only [stopConstellationExternal, stopConstellation_eq]
  generalize unlinkLoop (fun n => decide (n.connfd = connfd)) g.constellUserNodeHead none = loop
  generalize
    (if loop.found = true then g.constellationUserCnt - 1 else g.constellationUserCnt) = cnt
  by_cases hlast : cnt = 0 ∧ g.constellationState = 1
  · simp only [hlast, and_self, true_and, if_true]
  · simp only [hlast, false_and, if_false]

def findCsiSaveUserNode (connfd : Int) (g : GDmaPara) : Option UserNode :=
  g.csiSaveUserNodeHead.find? fun n => n.connfd = connfd

def typeControlSaveCsi : Int := 53

/-- The save node of a connection, made when there is none. -/
def csiSaveUserNode (connfd : Int) (g : GDmaPara) : Nat × GDmaPara :=
  match findCsiSaveUserNode connfd g with
  | some n => (n.addr, g)
  | none =>
      (g.allocated,
        { g with
          csiSaveUserNodeHead := g.csiSaveUserNodeHead ++ [{ addr := g.allocated, connfd }]
          save := g.save.setFileT g.allocated (some .fresh)
          allocated := g.allocated + 1
          csiSaveUserCnt := g.csiSaveUserCnt + 1 })

def processCsiSaveFile (connfd : Int) (root : CJson) (r : SaveReplies) (g : GDmaPara) :
    Except Fault (Int × GDmaPara) := do
  let type ← valueint root "type"
  if type ≠ typeControlSaveCsi then return (-1, g)
  else
    let found := csiSaveUserNode connfd g
    let (ret, save) ← saveCommand 0 found.1 root r found.2.save
    return (ret, { found.2 with save })

/-- `processCSI`, as far as the saved copy goes. -/
def processCSI (buf : List UInt8) (g : GDmaPara) : GDmaPara := { g with csiSpectrumBuf := buf }

def sendCsiToSave (r : SaveReplies) (g : GDmaPara) : Except Fault GDmaPara := do
  let save ← sendToSave (.ok g.csiSpectrumBuf) false r
    (g.csiSaveUserNodeHead.map UserNode.addr) g.save
  return { g with save }

def informStopCsiWriteThread (connfd : Int) (r : SaveReplies) (g : GDmaPara) :
    Except Fault GDmaPara :=
  match findCsiSaveUserNode connfd g with
  | none => .ok g
  | some n => do
      let save ← informStop n.addr r g.save
      return { g with save }

def clearCsiWriteStatus (node : Nat) (g : GDmaPara) : Except Fault GDmaPara := do
  let loop := unlinkLoop (fun n => n.addr = node) g.csiSaveUserNodeHead none
  let save ← clearWriteStatus g.csiSaveFreed node g.save
  return { g with
    csiSaveUserNodeHead := loop.list
    csiSaveUserCnt := if loop.found then g.csiSaveUserCnt - 1 else g.csiSaveUserCnt
    save
    csiSaveFreed := node :: g.csiSaveFreed }

/-- One step of the `csi_write_thread` of start command `k`. -/
def csiWriteThread (k : Nat) (g : GDmaPara) : Except Fault GDmaPara := do
  let save ← writeThread g.csiSaveFreed k g.save
  return { g with save }

theorem sendCsiToSave_ok {r : SaveReplies} {g g' : GDmaPara} (h : sendCsiToSave r g = .ok g') :
    ∃ save, g' = { g with save } := by
  obtain ⟨save, -, hg'⟩ := bind_eq_ok.mp h
  exact ⟨save, (Except.ok.inj hg').symm⟩

theorem csiWriteThread_ok {k : Nat} {g g' : GDmaPara} (h : csiWriteThread k g = .ok g') :
    ∃ save, g' = { g with save } := by
  obtain ⟨save, -, hg'⟩ := bind_eq_ok.mp h
  exact ⟨save, (Except.ok.inj hg').symm⟩

theorem csiSaveUserNode_changes (connfd : Int) (g : GDmaPara) :
    ∃ csiSaveUserNodeHead csiSaveUserCnt allocated save,
      (csiSaveUserNode connfd g).2 =
          { g with csiSaveUserNodeHead, csiSaveUserCnt, allocated, save } ∧
        csiSaveUserCnt - csiSaveUserNodeHead.length =
          g.csiSaveUserCnt - g.csiSaveUserNodeHead.length := by
  unfold csiSaveUserNode
  split
  · exact ⟨_, _, _, _, rfl, rfl⟩
  · refine ⟨_, _, _, _, rfl, ?_⟩
    simp only [List.length_append, List.length_singleton]
    omega

theorem processCsiSaveFile_ok {connfd : Int} {root : CJson} {r : SaveReplies}
    {g g' : GDmaPara} {ret : Int} (h : processCsiSaveFile connfd root r g = .ok (ret, g')) :
    ∃ csiSaveUserNodeHead csiSaveUserCnt allocated save,
      g' = { g with csiSaveUserNodeHead, csiSaveUserCnt, allocated, save } ∧
        csiSaveUserCnt - csiSaveUserNodeHead.length =
          g.csiSaveUserCnt - g.csiSaveUserNodeHead.length := by
  obtain ⟨type, -, h⟩ := bind_eq_ok.mp h
  split at h
  · obtain rfl := (Prod.mk.inj (Except.ok.inj h)).2
    exact ⟨_, _, _, _, rfl, rfl⟩
  · obtain ⟨out, -, hg'⟩ := bind_eq_ok.mp h
    obtain ⟨head, cnt, allocated, save, heq, hcount⟩ := csiSaveUserNode_changes connfd g
    rw [heq] at hg'
    exact ⟨head, cnt, allocated, out.2, (Prod.mk.inj (Except.ok.inj hg')).2.symm, hcount⟩

theorem clearCsiWriteStatus_ok {node : Nat} {g g' : GDmaPara}
    (h : clearCsiWriteStatus node g = .ok g') :
    ∃ csiSaveUserNodeHead csiSaveUserCnt save csiSaveFreed,
      g' = { g with csiSaveUserNodeHead, csiSaveUserCnt, save, csiSaveFreed } ∧
        csiSaveUserCnt - csiSaveUserNodeHead.length =
          g.csiSaveUserCnt - g.csiSaveUserNodeHead.length := by
  obtain ⟨save, -, hg'⟩ := bind_eq_ok.mp h
  obtain rfl := Except.ok.inj hg'
  refine ⟨_, _, _, _, rfl, ?_⟩
  simp only [unlinkLoop_list, unlinkLoop_found]
  split
  · rename_i hany
    have hlength := length_eraseP_add hany
    omega
  · rename_i hany
    rw [eraseP_of_not_any hany]

end GwWeb.DmaHandler
