import Mathlib.Logic.Function.Basic
import Mathlib.Tactic.Common

/-!
What the modules share: `write_file_t` and `queue_item` of `web_common.h`, and
the code around them that `mosquitto_broker.c` and `dma_handler.c` each have a
copy of. A structure on the heap is named by its address; `fileT` is the
`rssi_file_t` or `csi_file_t` field of the node at each address. Here and in the
modules below, functions, fields and constants have their C names, in camelCase.
-/

namespace GwWeb.WebCommon

/-- What ends the process: a NULL pointer followed, memory or a FILE used after
its release, a failed `assert`, a length no buffer has. -/
inductive Fault where
  | nullPointer
  | afterFree
  | assertion
  | badLength
  deriving DecidableEq, Repr

theorem bind_eq_ok {α β : Type} {x : Except Fault α} {f : α → Except Fault β} {b : β} :
    (x >>= f) = .ok b ↔ ∃ a, x = .ok a ∧ f a = .ok b := by
  cases x with
  | error e => simp [bind, Except.bind]
  | ok a => simp [bind, Except.bind]

theorem bind_eq_error {α β : Type} {x : Except Fault α} {f : α → Except Fault β} {e : Fault} :
    (x >>= f) = .error e ↔ x = .error e ∨ ∃ a, x = .ok a ∧ f a = .error e := by
  cases x with
  | error e => simp [bind, Except.bind]
  | ok a => simp [bind, Except.bind]

/-- `cJSON`, as far as the save commands read it. -/
structure CJsonItem where
  valueint : Int
  valuestring : Option String

/-- A parsed text: the item `cJSON_GetObjectItem` returns for each key. A text
that does not parse has no items. -/
abbrev CJson := String → Option CJsonItem

/-- `cJSON_GetObjectItem(root, key)->valueint`. -/
def valueint (root : CJson) (key : String) : Except Fault Int :=
  match root key with
  | none => .error .nullPointer
  | some item => .ok item.valueint

/-- `cJSON_GetObjectItem(root, key)->valuestring`, which is read at once. -/
def valuestring (root : CJson) (key : String) : Except Fault String :=
  match root key with
  | some { valuestring := some s, .. } => .ok s
  | _ => .error .nullPointer

/-- A node of one of the user lists: `rssi_user_node`, `csi_user_node`,
`csi_save_user_node`, `constell_user_node`. -/
structure UserNode where
  addr : Nat
  connfd : Int
  deriving DecidableEq, Repr

/-- `write_file_t`. A file is named by the start command that opened it, and so
is a queue. -/
structure WriteFile where
  enable : Int
  queue : Option Nat
  fileName : String
  file : Option Nat

/-- A slot that `malloc` and the start command have just made. -/
def WriteFile.fresh : WriteFile := { enable := 0, queue := none, fileName := "", file := none }

/-- A `queue_item`, its `buf_len` being the length of `buf`. -/
structure QueueItem where
  buf : List UInt8

/-- The item that ends a write thread. -/
def QueueItem.terminator : QueueItem := { buf := [] }

/-- Where a write thread is in its loop: about to read the queue pointer of its
node, inside `tiny_queue_pop`, about to `fwrite` what it popped, behind the
loop, or gone. -/
inductive WriterState where
  | fetch
  | pop (queue : Option Nat)
  | write (buf : List UInt8)
  | post
  | exited
  deriving DecidableEq, Repr

/-- The thread has not ended. -/
def WriterState.Live (w : WriterState) : Prop := w ≠ .exited

instance (w : WriterState) : Decidable w.Live := inferInstanceAs (Decidable (_ ≠ _))

/-- What one start command made: the FILE and what was written to it, the queue
while it exists, and the write thread. `queued` records what was queued while
the command was in force. -/
structure Recording where
  node : Nat
  fileName : String
  written : List (List UInt8)
  isOpen : Bool
  queue : Option (List QueueItem)
  writer : Option WriterState
  queued : List (List UInt8)

/-- A posted message that a writer has ended: the node it names, and the start
command whose writer posted it. -/
structure ClearStatus where
  node : Nat
  writer : Nat
  deriving DecidableEq, Repr

/-- The slots of one save protocol, and what its start commands have made. -/
structure WriteComponent where
  fileT : Nat → Option WriteFile
  recording : Nat → Recording
  starts : Nat
  posted : List ClearStatus

/-- What there is of a start command that has not been made. -/
def Recording.unused : Recording :=
  { node := 0, fileName := "", written := [], isOpen := false, queue := none, writer := none,
    queued := [] }

def WriteComponent.empty : WriteComponent :=
  { fileT := fun _ => none, recording := fun _ => .unused, starts := 0, posted := [] }

/-- The library's answers to one save command or message: whether `fopen` and
`tiny_queue_create` succeed, and whether a push for a node finds memory. -/
structure SaveReplies where
  fopen : Bool
  tinyQueueCreate : Bool
  tinyQueuePush : Nat → Bool

namespace WriteComponent

def setFileT (w : WriteComponent) (node : Nat) (t : Option WriteFile) : WriteComponent :=
  { w with fileT := Function.update w.fileT node t }

def setRecording (w : WriteComponent) (k : Nat) (r : Recording) : WriteComponent :=
  { w with recording := Function.update w.recording k r }

variable (w : WriteComponent) (k : Nat) (r : Recording) (node : Nat) (t : Option WriteFile)

@[simp] theorem fileT_setFileT : (w.setFileT node t).fileT node = t := by
  simp [setFileT]

@[simp] theorem fileT_setRecording : (w.setRecording k r).fileT = w.fileT := rfl

@[simp] theorem recording_setFileT : (w.setFileT node t).recording = w.recording := rfl

@[simp] theorem recording_setRecording : (w.setRecording k r).recording k = r := by
  simp [setRecording]

theorem fileT_setFileT_of_ne {m : Nat} (hm : m ≠ node) :
    (w.setFileT node t).fileT m = w.fileT m := by
  simp [setFileT, hm]

theorem recording_setRecording_of_ne {j : Nat} (hj : j ≠ k) :
    (w.setRecording k r).recording j = w.recording j := by
  simp [setRecording, hj]

@[simp] theorem setRecording_setRecording (r' : Recording) :
    (w.setRecording k r).setRecording k r' = w.setRecording k r' := by
  simp [setRecording]

theorem setRecording_self : w.setRecording k (w.recording k) = w := by
  unfold setRecording
  rw [Function.update_eq_self]

theorem setFileT_self : w.setFileT node (w.fileT node) = w := by
  unfold setFileT
  rw [Function.update_eq_self]

end WriteComponent

/-- `tiny_queue_push`, with whether `malloc` has memory for the node. -/
def tinyQueuePush (queue : Option Nat) (item : QueueItem) (memory : Bool) (w : WriteComponent) :
    Except Fault WriteComponent :=
  if memory then
    match queue with
    | none => .error .nullPointer
    | some k =>
        match (w.recording k).queue with
        | none => .error .afterFree
        | some items =>
            .ok (w.setRecording k { w.recording k with queue := some (items ++ [item]) })
  else .ok w

/-- The body of `inform_stop_rssi_write_thread` and `inform_stop_csi_write_thread`
for the node found. -/
def informStop (node : Nat) (r : SaveReplies) (w : WriteComponent) :
    Except Fault WriteComponent :=
  match w.fileT node with
  | none => .error .nullPointer
  | some t => do
      let w ← tinyQueuePush t.queue .terminator (r.tinyQueuePush node) w
      return w.setFileT node (some { t with enable := 0 })

theorem tinyQueuePush_ok {queue : Option Nat} {item : QueueItem} {memory : Bool}
    {w w' : WriteComponent}
    (h : tinyQueuePush queue item memory w = .ok w') :
    (memory = false ∧ w' = w) ∨
      memory = true ∧ ∃ k items, queue = some k ∧ (w.recording k).queue = some items ∧
        w' = w.setRecording k { w.recording k with queue := some (items ++ [item]) } := by
  unfold tinyQueuePush at h
  split at h
  · rename_i hmemory
    split at h
    · cases h
    · rename_i k
      split at h
      · cases h
      · rename_i items hitems
        exact .inr ⟨hmemory, k, items, rfl, hitems, (Except.ok.inj h).symm⟩
  · rename_i hmemory
    exact .inl ⟨by simpa using hmemory, (Except.ok.inj h).symm⟩

/-- The terminator is pushed if there is memory for it; the slot is disabled anyway. -/
theorem informStop_pushes {node : Nat} {r : SaveReplies} {w w' : WriteComponent}
    (h : informStop node r w = .ok w') :
    ∃ t w₁, w.fileT node = some t ∧
      tinyQueuePush t.queue .terminator (r.tinyQueuePush node) w = .ok w₁ ∧
      w' = w₁.setFileT node (some { t with enable := 0 }) := by
  unfold informStop at h
  split at h
  · cases h
  · rename_i t hslot
    obtain ⟨w₁, hpush, h⟩ := bind_eq_ok.mp h
    exact ⟨t, w₁, hslot, hpush, (Except.ok.inj h).symm⟩

theorem informStop_ok {node : Nat} {r : SaveReplies} {w w' : WriteComponent}
    (h : informStop node r w = .ok w') :
    ∃ t, w.fileT node = some t ∧
      (r.tinyQueuePush node = false ∧ w' = w.setFileT node (some { t with enable := 0 }) ∨
        r.tinyQueuePush node = true ∧ ∃ k items, t.queue = some k ∧
          (w.recording k).queue = some items ∧
          w' = (w.setRecording k { w.recording k with
            queue := some (items ++ [.terminator]) }).setFileT node
              (some { t with enable := 0 })) := by
  obtain ⟨t, w₁, hslot, hpush, rfl⟩ := informStop_pushes h
  refine ⟨t, hslot, ?_⟩
  rcases tinyQueuePush_ok hpush with ⟨hmemory, rfl⟩ | ⟨hmemory, k, items, hqueue, hitems, rfl⟩
  · exact .inl ⟨hmemory, rfl⟩
  · exact .inr ⟨hmemory, k, items, hqueue, hitems, rfl⟩

/-- Where saved files go. -/
def logDirectory : String := "/run/media/mmcblk1p1/gw_web/web/log/"

/-- The start branch of the two save commands from `sprintf` on: its return
value, and the write thread launched on the node. -/
def startSave (node : Nat) (t : WriteFile) (name : String) (r : SaveReplies)
    (w : WriteComponent) : Int × WriteComponent :=
  let fileName := logDirectory ++ name
  if r.fopen then
    let k := w.starts
    let opened : Recording :=
      { node, fileName, written := [], isOpen := true, queue := none, writer := none,
        queued := [] }
    let w := { w with starts := k + 1 }
    if r.tinyQueueCreate then
      (0, (w.setRecording k { opened with queue := some [], writer := some .fetch }).setFileT node
        (some { enable := 1, queue := some k, fileName, file := some k }))
    else
      (-1, (w.setRecording k opened).setFileT node
        (some { t with queue := none, fileName, file := some k }))
  else (-1, w.setFileT node (some { t with fileName, file := none }))

/-- The two save commands on the node found, from `op_cmd` on. They differ in
what they return when there is nothing to stop or to start. -/
def saveCommand (already : Int) (node : Nat) (root : CJson) (r : SaveReplies)
    (w : WriteComponent) : Except Fault (Int × WriteComponent) := do
  let opCmd ← valueint root "op_cmd"
  match w.fileT node with
  | none => .error .nullPointer
  | some t =>
      if opCmd = 0 then
        if t.enable = 0 then return (already, w)
        else do
          let w ← informStop node r w
          return (0, w)
      else if opCmd = 1 then
        if t.enable = 1 then return (already, w)
        else do
          let name ← valuestring root "file_name"
          return startSave node t name r w
      else return (0, w)

/-- A record is queued, if there is memory. -/
def queueRecord (t : WriteFile) (buf : List UInt8) (memory : Bool) (w : WriteComponent) :
    Except Fault WriteComponent := do
  let w ← tinyQueuePush t.queue { buf } memory w
  match t.queue with
  | some k =>
      if memory then
        return w.setRecording k { w.recording k with queued := (w.recording k).queued ++ [buf] }
      else return w
  | none => return w

/-- The loop of `send_rssi_to_save` and `send_csi_to_save` over the listed
nodes. It ends at the first node whose `enable` is 0; only the former knows of
`enable` 2. -/
def sendToSave (record : Except Fault (List UInt8)) (knowsTwo : Bool) (r : SaveReplies) :
    List Nat → WriteComponent → Except Fault WriteComponent
  | [], w => .ok w
  | node :: nodes, w =>
      match w.fileT node with
      | none => sendToSave record knowsTwo r nodes w
      | some t =>
          if t.enable = 0 then .ok w
          else if t.enable = 1 then do
            let buf ← record
            let w ← queueRecord t buf (r.tinyQueuePush node) w
            sendToSave record knowsTwo r nodes w
          else if t.enable = 2 ∧ knowsTwo then do
            let w ← informStop node r w
            sendToSave record knowsTwo r nodes w
          else sendToSave record knowsTwo r nodes w

theorem queueRecord_ok {t : WriteFile} {buf : List UInt8} {memory : Bool} {w w' : WriteComponent}
    (h : queueRecord t buf memory w = .ok w') :
    (memory = false ∧ w' = w) ∨
      memory = true ∧ ∃ k items, t.queue = some k ∧ (w.recording k).queue = some items ∧
        w' = w.setRecording k { w.recording k with
          queue := some (items ++ [{ buf }]), queued := (w.recording k).queued ++ [buf] } := by
  obtain ⟨w₁, hpush, hw'⟩ := bind_eq_ok.mp h
  rcases tinyQueuePush_ok hpush with ⟨rfl, rfl⟩ | ⟨rfl, k, items, hqueue, hitems, rfl⟩
  · refine .inl ⟨rfl, ?_⟩
    split at hw' <;> exact (Except.ok.inj hw').symm
  · simp only [hqueue, if_true, WriteComponent.recording_setRecording,
      WriteComponent.setRecording_setRecording] at hw'
    exact .inr ⟨rfl, k, items, hqueue, hitems, (Except.ok.inj hw').symm⟩

/-- A loop that got through, node by node. -/
inductive Sent (record : Except Fault (List UInt8)) (r : SaveReplies) :
    List Nat → WriteComponent → WriteComponent → Prop where
  | done (w : WriteComponent) : Sent record r [] w w
  | ended {n : Nat} {nodes : List Nat} {w : WriteComponent} {t : WriteFile}
      (hslot : w.fileT n = some t) (henable : t.enable = 0) : Sent record r (n :: nodes) w w
  | skipped {n : Nat} {nodes : List Nat} {w w' : WriteComponent}
      (hother : ∀ t, w.fileT n = some t → t.enable ≠ 0 ∧ t.enable ≠ 1)
      (hrest : Sent record r nodes w w') : Sent record r (n :: nodes) w w'
  | queued {n : Nat} {nodes : List Nat} {w w₁ w' : WriteComponent} {t : WriteFile}
      {buf : List UInt8} (hslot : w.fileT n = some t) (henable : t.enable = 1)
      (hrecord : record = .ok buf) (hqueue : queueRecord t buf (r.tinyQueuePush n) w = .ok w₁)
      (hrest : Sent record r nodes w₁ w') : Sent record r (n :: nodes) w w'
  | stopped {n : Nat} {nodes : List Nat} {w w₁ w' : WriteComponent} {t : WriteFile}
      (hslot : w.fileT n = some t) (henable : t.enable = 2)
      (hstop : informStop n r w = .ok w₁) (hrest : Sent record r nodes w₁ w') :
      Sent record r (n :: nodes) w w'

theorem sent_of_sendToSave {record : Except Fault (List UInt8)} {knowsTwo : Bool}
    {r : SaveReplies} {nodes : List Nat} {w w' : WriteComponent}
    (h : sendToSave record knowsTwo r nodes w = .ok w') : Sent record r nodes w w' := by
  induction nodes generalizing w with
  | nil => exact Except.ok.inj h ▸ .done w
  | cons n nodes ih =>
      simp only [sendToSave] at h
      split at h
      · rename_i hnone
        exact .skipped (by simp [hnone]) (ih h)
      · rename_i t hslot
        split at h
        · rename_i hzero
          exact Except.ok.inj h ▸ .ended hslot hzero
        · rename_i hzero
          split at h
          · rename_i hone
            obtain ⟨buf, hrecord, h⟩ := bind_eq_ok.mp h
            obtain ⟨w₁, hqueue, h⟩ := bind_eq_ok.mp h
            exact .queued hslot hone hrecord hqueue (ih h)
          · rename_i hone
            split at h
            · rename_i htwo
              obtain ⟨w₁, hstop, h⟩ := bind_eq_ok.mp h
              exact .stopped hslot htwo.1 hstop (ih h)
            · refine .skipped (fun t' hslot' => ?_) (ih h)
              obtain rfl := Option.some.inj (hslot.symm.trans hslot')
              exact ⟨hzero, hone⟩

/-- The slot that a `clear` message points to. -/
def writeFileOf (freed : List Nat) (node : Nat) (w : WriteComponent) : Except Fault WriteFile :=
  if node ∈ freed then .error .afterFree
  else
    match w.fileT node with
    | none => .error .nullPointer
    | some t => .ok t

def fwrite (file : Option Nat) (buf : List UInt8) (w : WriteComponent) :
    Except Fault WriteComponent :=
  match file with
  | none => .error .nullPointer
  | some k =>
      if (w.recording k).isOpen then
        .ok (w.setRecording k { w.recording k with written := (w.recording k).written ++ [buf] })
      else .error .afterFree

/-- One step of the write thread of start command `k`: `rssi_write_thread`,
`csi_write_thread`. On an empty queue it stays where it is. -/
def writeThread (freed : List Nat) (k : Nat) (w : WriteComponent) :
    Except Fault WriteComponent :=
  let node := (w.recording k).node
  let goTo (s : WriterState) (w : WriteComponent) :=
    w.setRecording k { w.recording k with writer := some s }
  match (w.recording k).writer with
  | none => .ok w
  | some .exited => .ok w
  | some .fetch => do
      let t ← writeFileOf freed node w
      return goTo (.pop t.queue) w
  | some (.pop none) => .error .nullPointer
  | some (.pop (some q)) =>
      match (w.recording q).queue with
      | none => .error .afterFree
      | some [] => .ok w
      | some (item :: items) =>
          let w := w.setRecording q { w.recording q with queue := some items }
          .ok (goTo (if item.buf.length = 0 then .post else .write item.buf) w)
  | some (.write buf) => do
      let t ← writeFileOf freed node w
      let w ← fwrite t.file buf w
      return goTo .fetch w
  | some .post =>
      .ok (goTo .exited { w with posted := w.posted ++ [{ node, writer := k }] })

def fclose (file : Option Nat) (w : WriteComponent) : Except Fault WriteComponent :=
  match file with
  | none => .error .nullPointer
  | some k =>
      if (w.recording k).isOpen then
        .ok (w.setRecording k { w.recording k with isOpen := false })
      else .error .afterFree

def tinyQueueDestory (queue : Option Nat) (w : WriteComponent) : Except Fault WriteComponent :=
  match queue with
  | none => .error .nullPointer
  | some k =>
      match (w.recording k).queue with
      | none => .error .afterFree
      | some _ => .ok (w.setRecording k { w.recording k with queue := none })

/-- What `clear_rssi_write_status` and `clear_csi_write_status` do to the
`write_file_t` of the node they are handed. -/
def clearWriteStatus (freed : List Nat) (node : Nat) (w : WriteComponent) :
    Except Fault WriteComponent := do
  let t ← writeFileOf freed node w
  let w ← fclose t.file w
  let w ← tinyQueueDestory t.queue w
  return w.setFileT node none

end GwWeb.WebCommon
