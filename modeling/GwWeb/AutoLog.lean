import GwWeb.TextReading
import GwWeb.TinyQueue

/-!
The background log of `auto_log.c`: the event loop queues items, and
`auto_save_thread` writes them to one of two files. An item and what it points to
are blocks from `malloc`, and the queue holds the addresses of the items.
-/

namespace GwWeb.AutoLog

open TextReading
open TransitionRuns
open GwWeb.WebCommon (Fault)

inductive QueueItemType where
  | logData
  | logRssi
  | logSnr
  | logDistance
  | logAlarmEvent
  | logHighTemp
  | logRadioException
  deriving DecidableEq, Repr

/-- `log_data_t`; the type is that of the doubles. -/
structure LogData (δ : Type) where
  rssi : δ
  snr : δ
  distance : δ
  deriving DecidableEq

/-- What the `buf` of an item points to. -/
inductive Content (δ : Type) where
  | data (d : LogData δ)
  | text (bytes : List UInt8)
  deriving DecidableEq

/-- A block that is allocated: an `auto_log_item`, or a `buf`. -/
inductive Block (δ : Type) where
  | item (type : QueueItemType) (buf : Option Nat)
  | content (c : Content δ)

/-- A line of a file: the local time in front of it, and the text. -/
structure Line where
  time : List UInt8
  text : List UInt8
  deriving DecidableEq, Repr

/-- The thread that calls the log, and `auto_save_thread`. -/
inductive Thread where
  | eventLoop
  | autoSaveThread
  deriving DecidableEq

instance : Fintype Thread where
  elems := {.eventLoop, .autoSaveThread}
  complete := by
    intro t
    cases t <;> decide

/-- `LogCollector` and what is reached from it; `item` is the variable of
`auto_save_thread`, from `tiny_queue_pop` to `print_log`. -/
structure State (δ : Type) where
  queue : TinyQueue.State Thread Nat
  memory : Nat → Option (Block δ)
  item : Option Nat
  pfileData : List Line
  pAlarmfile : List Line

/-- What `malloc` returns for an item, for its `buf` and, inside `tiny_queue_push`, for
the node. -/
structure Mallocs where
  item : Nat
  buf : Nat
  newNode : Option Nat

/-- A call, a step of the queue of either thread, or the item that is printed. -/
inductive Label (δ : Type) where
  | myLogData (data : LogData δ) (m : Mallocs)
  | autoSaveAlarmLog (data : List UInt8) (dataLen : Nat) (type : QueueItemType) (m : Mallocs)
  | queue (l : TinyQueue.Label Thread Nat)
  | printLog (time : List UInt8)

section Functions

variable {δ : Type}

/-- The `file_name` of a file of the collector. -/
def fileName (kind : String) (idCount : Int) : String :=
  "/run/media/mmcblk1p1/gw_web/web/auto_log/" ++ kind ++ toString idCount ++ ".log"

/-- `fopen` for appending finds what is in a file already. -/
def autoLogStart (autologFileNum : Int) (fopen : String → Option (List Line))
    (tinyQueueCreated : Bool) : Except Int (State δ) :=
  let idCount := autologFileNum.tdiv 2
  match fopen (fileName "data_state_" idCount), fopen (fileName "alarm_" idCount) with
  | none, _ => .error (-1)
  | some _, none => .error (-2)
  | some pfileData, some pAlarmfile =>
      if tinyQueueCreated then
        .ok { queue := TinyQueue.tinyQueueCreate, memory := fun _ => none, item := none,
              pfileData, pAlarmfile }
      else .error (-3)

/-- `malloc`, with what is written to the block. -/
def malloc (a : Nat) (b : Block δ) (s : State δ) : State δ :=
  { s with memory := Function.update s.memory a (some b) }

/-- `free`, of a block that is allocated. -/
def free (a : Nat) (s : State δ) : Except Fault (State δ) :=
  match s.memory a with
  | none => .error .afterFree
  | some _ => .ok { s with memory := Function.update s.memory a none }

/-- What the two `auto_save` functions share, up to the lock in `tiny_queue_push`. A push
without memory returns -1 at once, and only the item is freed. -/
def autoSave (type : QueueItemType) (buf : Option Nat) (m : Mallocs) (s : State δ) :
    Except Fault (State δ) := do
  let s := malloc m.item (.item type buf) s
  let queue ← TinyQueue.execute s.queue (.push .eventLoop m.item m.newNode)
  let s := { s with queue }
  match m.newNode with
  | none => free m.item s
  | some _ => return s

def autoSaveDataLog (data : Nat) (type : QueueItemType) (m : Mallocs) (s : State δ) :
    Except Fault (State δ) := autoSave type (some data) m s

/-- `auto_save_alarm_log`: with `data_len` the text is copied, without it there is no `buf`. -/
def autoSaveAlarmLog (data : List UInt8) (dataLen : Nat) (type : QueueItemType) (m : Mallocs)
    (s : State δ) : Except Fault (State δ) :=
  if dataLen = 0 then autoSave type none m s
  else if data.length < dataLen then .error .badLength
  else autoSave type (some m.buf) m (malloc m.buf (.content (.text (data.take dataLen))) s)

def myLogData (data : LogData δ) (m : Mallocs) (s : State δ) : Except Fault (State δ) :=
  autoSaveDataLog m.buf .logData m (malloc m.buf (.content (.data data)) s)

/-- What `buf` points to when it is read. -/
def pointedTo (buf : Option Nat) (s : State δ) : Except Fault (Content δ) :=
  match buf with
  | none => .error .nullPointer
  | some a =>
      match s.memory a with
      | some (.content x) => .ok x
      | _ => .error .afterFree

/-- The bytes that `%s` prints. -/
def printedString (x : Content δ) : Except Fault (List UInt8) :=
  match x with
  | .text bytes => if 0 ∈ bytes then .ok (bytes.takeWhile fun b => b ≠ 0) else .error .badLength
  | .data _ => .error .badLength

/-- A `buf` read as `struct log_data`. -/
def asLogData (x : Content δ) : Except Fault (LogData δ) :=
  match x with
  | .data d => .ok d
  | .text _ => .error .badLength

/-- `write_log`: one line at the end of the file. -/
def writeLog (time text : List UInt8) (file : List Line) : List Line := file ++ [⟨time, text⟩]

/-- `"%s %s\n"`. -/
def alarmText (event : String) (text : List UInt8) : List UInt8 :=
  stringBytes event ++ stringBytes " " ++ text ++ stringBytes "\n"

variable (percentF : δ → List UInt8)

/-- `"%s %f,%f,%f\n"`. -/
def dataText (d : LogData δ) : List UInt8 :=
  stringBytes "rssi-snr-distance : " ++ stringBytes " " ++ percentF d.rssi ++ stringBytes "," ++
    percentF d.snr ++ stringBytes "," ++ percentF d.distance ++ stringBytes "\n"

/-- The `switch` of `print_log`. -/
def writeItem (time : List UInt8) (type : QueueItemType) (buf : Option Nat) (s : State δ) :
    Except Fault (State δ) :=
  match type with
  | .logData => do
      let data ← pointedTo buf s >>= asLogData
      return { s with pfileData := writeLog time (dataText percentF data) s.pfileData }
  | .logHighTemp => do
      let text ← pointedTo buf s >>= printedString
      let line := alarmText "Alarm Event : high temperature --- " text
      return { s with pAlarmfile := writeLog time line s.pAlarmfile }
  | .logRadioException => do
      let text ← pointedTo buf s >>= printedString
      let line := alarmText "Alarm Event : radio system exception --- " text
      return { s with pAlarmfile := writeLog time line s.pAlarmfile }
  | .logRssi | .logSnr | .logDistance | .logAlarmEvent => .ok s

/-- `free(tmp_item->buf)`, if there is one. -/
def freeBuf (buf : Option Nat) (s : State δ) : Except Fault (State δ) :=
  match buf with
  | none => .ok s
  | some a => free a s

/-- `print_log`: the line of an item, then its `buf` and the item are freed. -/
def printLog (time : List UInt8) (item : Nat) (s : State δ) : Except Fault (State δ) :=
  match s.memory item with
  | some (.item type buf) => do
      let s ← writeItem percentF time type buf s
      let s ← freeBuf buf s
      free item s
  | _ => .error .afterFree

/-- What `tiny_queue_pop` returns when it has unlocked the mutex. -/
def received (s : State δ) : TinyQueue.Label Thread Nat → Option Nat
  | .unlock t =>
      match s.queue.place t with
      | .taken item => some item
      | _ => s.item
  | _ => s.item

def execute (s : State δ) : Label δ → Except Fault (State δ)
  | .myLogData data m => myLogData data m s
  | .autoSaveAlarmLog data dataLen type m => autoSaveAlarmLog data dataLen type m s
  | .queue l => do
      let queue ← TinyQueue.execute s.queue l
      return { s with queue, item := received s l }
  | .printLog time =>
      match s.item with
      | none => .error .nullPointer
      | some item => do
          let s ← printLog percentF time item s
          return { s with item := none }

/-- The steps of the queue that are not the start of a call, but for the next
`tiny_queue_pop` of `auto_save_thread`. -/
def OwnStep (s : State δ) : TinyQueue.Label Thread Nat → Prop
  | .push _ _ _ => False
  | .pop t => t = .autoSaveThread ∧ s.item = none
  | _ => True

/-- The event loop is not inside `tiny_queue_push`, and `malloc` returns memory that is
not in use. -/
def CanSave (m : Mallocs) (s : State δ) : Prop :=
  s.queue.place .eventLoop = .outside ∧ s.memory m.item = none ∧ s.memory m.buf = none ∧
    m.item ≠ m.buf ∧ ∀ a ∈ m.newNode, s.queue.heap a = none

/-- `malloc` returns memory that is not in use, and a thread takes its own steps. -/
def Possible (s : State δ) : Label δ → Prop
  | .myLogData _ m | .autoSaveAlarmLog _ _ _ m => CanSave m s
  | .queue l => TinyQueue.Possible s.queue l ∧ OwnStep s l
  | .printLog _ => s.item ≠ none

abbrev Step : State δ → Label δ → State δ → Prop := Executes Possible (execute percentF)

/-- The copy stays inside `data`, and a text that will be printed has its NUL copied;
`LOG_DATA` is not for texts. -/
def Admissible : Label δ → Prop
  | .autoSaveAlarmLog data dataLen type _ =>
      dataLen ≤ data.length ∧ type ≠ .logData ∧
        (type = .logHighTemp ∨ type = .logRadioException → 0 ∈ data.take dataLen)
  | _ => True

instance (m : Mallocs) (s : State δ) : Decidable (CanSave m s) :=
  inferInstanceAs (Decidable (_ = _ ∧ _ ∧ _ ∧ _ ∧ ∀ a ∈ m.newNode, s.queue.heap a = none))

instance (s : State δ) (l : TinyQueue.Label Thread Nat) : Decidable (OwnStep s l) :=
  match l with
  | .push _ _ _ => isFalse id
  | .pop _ => inferInstanceAs (Decidable (_ ∧ _))
  | .lock _ | .act _ | .unlock _ | .signal _ _ | .wake _ => isTrue trivial

instance (s : State δ) (l : Label δ) : Decidable (Possible s l) :=
  match l with
  | .myLogData _ m | .autoSaveAlarmLog _ _ _ m => inferInstanceAs (Decidable (CanSave m s))
  | .queue _ => inferInstanceAs (Decidable (_ ∧ _))
  | .printLog _ => inferInstanceAs (Decidable (s.item ≠ none))

instance (l : Label δ) : Decidable (Admissible l) :=
  match l with
  | .autoSaveAlarmLog _ _ _ _ => inferInstanceAs (Decidable (_ ∧ _ ∧ (_ → _)))
  | .myLogData _ _ | .queue _ | .printLog _ => isTrue trivial

end Functions

end GwWeb.AutoLog
