import GwWeb.AutoLog
import GwWeb.BlockContents
import GwWeb.OrderedLedger
import GwWeb.QueueHolder

/-!
The background log keeps a ledger: every item that is queued is written to its file
once, in order, with the text that was saved, and its memory is freed then.
-/

namespace GwWeb.LogLedger

open BlockContents
open LinkedCells (Heap)
open OrderedLedger
open TransitionRuns
open GwWeb.WebCommon (Fault bind_eq_ok)
open GwWeb.TinyQueue (Place Moved Queued)
open GwWeb.QueueHolder
open GwWeb.AutoLog

/-- What a call saves. -/
structure Saved (δ : Type) where
  type : QueueItemType
  buf : Option (Content δ)
  deriving DecidableEq

/-- An item on its way, with the addresses of its blocks. -/
structure Stored (δ : Type) where
  item : Nat
  type : QueueItemType
  buf : Option (Nat × Content δ)

section Items

variable {δ : Type}

/-- An item without its addresses. -/
def Stored.saved (x : Stored δ) : Saved δ := ⟨x.type, x.buf.map Prod.snd⟩

/-- The blocks of an item. -/
def Stored.blocks (x : Stored δ) : List (Nat × Block δ) :=
  (x.item, .item x.type (x.buf.map Prod.fst)) ::
    x.buf.toList.map fun b => (b.1, .content b.2)

/-- `print_log` reads only what is there. -/
def Saved.Printable (x : Saved δ) : Prop :=
  match x.type with
  | .logData => ∃ d, x.buf = some (.data d)
  | .logHighTemp | .logRadioException => ∃ bytes, x.buf = some (.text bytes) ∧ 0 ∈ bytes
  | _ => True

/-- The text in the file of alarms. -/
def Saved.alarm (x : Saved δ) : Option (List UInt8) :=
  match x.type, x.buf with
  | .logHighTemp, some (.text bytes) =>
      some (alarmText "Alarm Event : high temperature --- " (bytes.takeWhile fun b => b ≠ 0))
  | .logRadioException, some (.text bytes) =>
      some (alarmText "Alarm Event : radio system exception --- "
        (bytes.takeWhile fun b => b ≠ 0))
  | _, _ => none

/-- The text in the file of data. -/
def Saved.data (percentF : δ → List UInt8) (x : Saved δ) : Option (List UInt8) :=
  match x.type, x.buf with
  | .logData, some (.data d) => some (dataText percentF d)
  | _, _ => none

/-- The lines that the items written have in a file. -/
def linesOf (text : Saved δ → Option (List UInt8)) (written : List (List UInt8 × Saved δ)) :
    List Line :=
  written.filterMap fun w => (text w.2).map fun line => ⟨w.1, line⟩

/-- Whether a call has its item queued depends on the node. -/
def enter (m : Mallocs) (x : Saved δ) : Entry (Saved δ) (List UInt8) :=
  match m.newNode with
  | none => .lose x
  | some _ => .save x

/-- The call that a step is the start of. -/
def called : Label δ → Option (Mallocs × Saved δ)
  | .myLogData d m => some (m, ⟨.logData, some (.data d)⟩)
  | .autoSaveAlarmLog data dataLen type m =>
      some (m, ⟨type, if dataLen = 0 then none else some (.text (data.take dataLen))⟩)
  | .queue _ | .printLog _ => none

/-- What a step means for the ledger. -/
def entries : Label δ → List (Entry (Saved δ) (List UInt8))
  | .printLog time => [.write time]
  | l => (called l).toList.map fun call => enter call.1 call.2

def entriesOf (trs : List (Transition (State δ) (Label δ))) :
    List (Entry (Saved δ) (List UInt8)) :=
  trs.flatMap fun tr => entries tr.label

/-- The items that calls have queued, in order, and those for which there was no node. -/
def savedBy (trs : List (Transition (State δ) (Label δ))) : List (Saved δ) :=
  (entriesOf trs).filterMap Entry.saved

/-- The items for which there was no node. -/
def lostBy (trs : List (Transition (State δ) (Label δ))) : List (Saved δ) :=
  (entriesOf trs).filterMap Entry.lost

def ledger (trs : List (Transition (State δ) (Label δ))) : Ledger (Saved δ) (List UInt8) :=
  Ledger.empty.after (entriesOf trs)

end Items

section Threads

/-- Where `tiny_queue_push` and where `tiny_queue_pop` have a thread. -/
def Producing : Place Nat → Prop
  | .outside | .pushing _ _ | .linking _ _ | .linked | .signalling => True
  | _ => False

def Consuming : Place Nat → Prop
  | .outside | .popping | .testing | .waiting | .woken | .taken _ => True
  | _ => False

/-- The item of a push that is not linked yet. -/
def pending : Place Nat → List Nat
  | .pushing _ x | .linking _ x => [x]
  | _ => []

/-- The item that has left the list and is not returned yet. -/
def taken : Place Nat → List Nat
  | .taken x => [x]
  | _ => []

/-- The items in the list. -/
def queued (q : TinyQueue.State Thread Nat) : List Nat := q.pushed.drop q.popped.length

/-- The items on their way, the oldest first. -/
def outstanding (q : TinyQueue.State Thread Nat) (item : Option Nat) : List Nat :=
  item.toList ++ taken (q.place .autoSaveThread) ++ queued q ++ pending (q.place .eventLoop)

/-- Each thread does its own part; `auto_save_thread` has what it took in one place. -/
structure Roles (q : TinyQueue.State Thread Nat) (item : Option Nat) : Prop where
  producer : Producing (q.place .eventLoop)
  consumer : Consuming (q.place .autoSaveThread)
  outside : item ≠ none → q.place .autoSaveThread = .outside

end Threads

/-- The ledger `L` is what happened since `s₀`. -/
structure Keeps {δ : Type} (percentF : δ → List UInt8) (s₀ s : State δ)
    (L : Ledger (Saved δ) (List UInt8)) : Prop where
  sound : TinyQueue.Sound s.queue
  held : Held s.queue
  roles : Roles s.queue s.item
  items : ∃ (xs : List (Stored δ)) (left : List (Nat × Content δ)),
    xs.map Stored.item = outstanding s.queue s.item ∧ xs.map Stored.saved = L.waiting ∧
      (∀ x ∈ xs, x.saved.Printable) ∧ left.map Prod.snd = L.lost.filterMap Saved.buf ∧
      Exactly s.memory (xs.flatMap Stored.blocks ++ left.map fun b => (b.1, .content b.2))
  data : s.pfileData = s₀.pfileData ++ linesOf (Saved.data percentF) L.written
  alarms : s.pAlarmfile = s₀.pAlarmfile ++ linesOf Saved.alarm L.written

section QueueSteps

variable {q q' : TinyQueue.State Thread Nat} {item : Option Nat}
  {l : TinyQueue.Label Thread Nat}

theorem queued_of_fifo {cells : List (Nat × Nat)} (h : Queued q cells) :
    queued q = cells.map Prod.snd := by
  rw [queued, ← h.fifo, List.drop_left]

theorem Roles.eventLoop (h : Roles q item) {t : Thread} (ht : ¬ Consuming (q.place t)) :
    t = .eventLoop := by
  cases t with
  | eventLoop => rfl
  | autoSaveThread => exact absurd h.consumer ht

theorem Roles.autoSaveThread (h : Roles q item) {t : Thread} (ht : ¬ Producing (q.place t)) :
    t = .autoSaveThread := by
  cases t with
  | eventLoop => exact absurd h.producer ht
  | autoSaveThread => rfl

theorem Roles.item_none (h : Roles q item) (hplace : q.place .autoSaveThread ≠ .outside) :
    item = none := by
  cases item with
  | none => rfl
  | some x => exact absurd (h.outside (Option.some_ne_none x)) hplace

theorem Roles.moveEventLoop (h : Roles q item) {q₁ : TinyQueue.State Thread Nat} {p : Place Nat}
    (hplace : q₁.place = q.place) (hp : Producing p)
    (hqueue : queued q₁ ++ pending p = queued q ++ pending (q.place .eventLoop)) :
    Roles (TinyQueue.moveTo .eventLoop p q₁) item ∧
      outstanding (TinyQueue.moveTo .eventLoop p q₁) item = outstanding q item := by
  refine ⟨⟨?_, ?_, ?_⟩, ?_⟩
  · simpa [TinyQueue.moveTo_place] using hp
  · simpa [TinyQueue.moveTo_place, hplace] using h.consumer
  · simpa [TinyQueue.moveTo_place, hplace] using h.outside
  · simp only [outstanding, TinyQueue.moveTo_place, hplace, Function.update_self, List.append_assoc]
    rw [Function.update_of_ne (by decide)]
    exact congrArg _ (congrArg _ hqueue)

theorem Roles.moveAutoSave (h : Roles q item) {q₁ : TinyQueue.State Thread Nat} {p : Place Nat}
    {item' : Option Nat} (hplace : q₁.place = q.place) (hp : Consuming p)
    (hitem : item' ≠ none → p = .outside)
    (hqueue : item'.toList ++ taken p ++ queued q₁ =
      item.toList ++ taken (q.place .autoSaveThread) ++ queued q) :
    Roles (TinyQueue.moveTo .autoSaveThread p q₁) item' ∧
      outstanding (TinyQueue.moveTo .autoSaveThread p q₁) item' = outstanding q item := by
  refine ⟨⟨?_, ?_, ?_⟩, ?_⟩
  · simpa [TinyQueue.moveTo_place, hplace] using h.producer
  · simpa [TinyQueue.moveTo_place] using hp
  · simpa [TinyQueue.moveTo_place] using hitem
  · simp only [outstanding, TinyQueue.moveTo_place, hplace, Function.update_self]
    rw [Function.update_of_ne (by decide)]
    exact congrArg (fun xs => xs ++ _) hqueue

theorem Roles.pushed (h : Roles q item) (heap : Heap Nat) (a x : Nat)
    (ht : q.place .eventLoop = .outside) :
    Roles (TinyQueue.moveTo .eventLoop (.pushing a x) { q with heap }) item ∧
      outstanding (TinyQueue.moveTo .eventLoop (.pushing a x) { q with heap }) item =
        outstanding q item ++ [x] := by
  refine ⟨⟨?_, ?_, ?_⟩, ?_⟩
  · simp [TinyQueue.moveTo_place, Producing]
  · simpa [TinyQueue.moveTo_place] using h.consumer
  · simpa [TinyQueue.moveTo_place] using h.outside
  · simp [outstanding, ht, pending, queued, TinyQueue.moveTo]

end QueueSteps

section Flow

variable {δ : Type} {s : State δ} {q' : TinyQueue.State Thread Nat}
  {l : TinyQueue.Label Thread Nat}

/-- A step of the queue moves the items on and keeps their order. -/
theorem queue_step (hsound : TinyQueue.Sound s.queue) (hroles : Roles s.queue s.item)
    (hown : OwnStep s l) (hmoved : Moved s.queue l q') :
    Roles q' (received s l) ∧
      outstanding q' (received s l) = outstanding s.queue s.item := by
  obtain ⟨⟨cells, hcells, -⟩, -⟩ := hsound
  cases hmoved with
  | noMemory => exact absurd hown id
  | push => exact absurd hown id
  | pop t ht =>
      obtain ⟨rfl, hitem⟩ := hown
      refine hroles.moveAutoSave rfl trivial (fun h => absurd hitem h) ?_
      rw [ht]
      rfl
  | lockPush t a data hmutex ht =>
      obtain rfl := hroles.eventLoop (t := t) (by simp [ht, Consuming])
      refine hroles.moveEventLoop rfl trivial ?_
      rw [ht]
      rfl
  | lockPop t hmutex ht =>
      obtain rfl := hroles.autoSaveThread (t := t)
        (by rcases ht with ht | ht <;> simp [ht, Producing])
      have hitem : s.item = none := hroles.item_none (by rcases ht with ht | ht <;> simp [ht])
      refine hroles.moveAutoSave rfl trivial (fun h => absurd hitem h) ?_
      rcases ht with ht | ht <;> rw [ht] <;> rfl
  | link t a data q₁ ht hlink =>
      obtain rfl := hroles.eventLoop (t := t) (by simp [ht, Consuming])
      obtain ⟨heap, head, tail, rfl⟩ := link_frame hlink
      refine hroles.moveEventLoop rfl trivial ?_
      have hle : s.queue.popped.length ≤ s.queue.pushed.length := by
        rw [← hcells.fifo, List.length_append]
        omega
      rw [ht]
      simp only [queued, pending, List.append_nil]
      exact List.drop_append_of_le_length hle
  | wait t ht hhead =>
      obtain rfl := hroles.autoSaveThread (t := t) (by simp [ht, Producing])
      have hitem : s.item = none := hroles.item_none (by simp [ht])
      refine hroles.moveAutoSave rfl trivial (fun h => absurd hitem h) ?_
      rw [ht]
      rfl
  | take t data q₁ ht hhead htake =>
      obtain rfl := hroles.autoSaveThread (t := t) (by simp [ht, Producing])
      have hitem : s.item = none := hroles.item_none (by simp [ht])
      obtain ⟨a, rest, rfl, hafter⟩ := hcells.taken (t := .autoSaveThread) hhead htake
      obtain ⟨heap, head, tail, rfl⟩ := take_frame htake
      refine hroles.moveAutoSave rfl trivial (fun h => absurd hitem h) ?_
      have hrest := queued_of_fifo hafter
      have hqueued : queued { s.queue with heap, head, tail, popped := s.queue.popped ++ [data] } =
          rest.map Prod.snd := hrest
      rw [hqueued, queued_of_fifo hcells, ht]
      show s.item.toList ++ [data] ++ _ = _
      rw [hitem]
      rfl
  | unlockPush t ht =>
      obtain rfl := hroles.eventLoop (t := t) (by simp [ht, Consuming])
      have hreceived : received s (.unlock .eventLoop) = s.item := by simp [received, ht]
      rw [hreceived]
      refine hroles.moveEventLoop rfl trivial ?_
      rw [ht]
      rfl
  | unlockPop t data ht =>
      obtain rfl := hroles.autoSaveThread (t := t) (by simp [ht, Producing])
      have hitem : s.item = none := hroles.item_none (by simp [ht])
      have hreceived : received s (.unlock .autoSaveThread) = some data := by simp [received, ht]
      rw [hreceived]
      refine hroles.moveAutoSave rfl trivial (fun _ => rfl) ?_
      rw [ht, hitem]
      rfl
  | signal t woken ht hwoken hsome =>
      obtain rfl := hroles.eventLoop (t := t) (by simp [ht, Consuming])
      have hother : Thread.eventLoop ∉ woken := by
        intro hmem
        have hwaiting := hwoken _ hmem
        simp [ht] at hwaiting
      show Roles _ s.item ∧ outstanding _ s.item = _
      by_cases hmem : Thread.autoSaveThread ∈ woken
      · have hplace := hwoken _ hmem
        have hitem : s.item = none := hroles.item_none (by simp [hplace])
        refine ⟨⟨by simp [hother, Producing], by simp [hmem, Consuming],
          fun h => absurd hitem h⟩, ?_⟩
        simp [outstanding, hother, hmem, ht, hplace, pending, taken, queued]
      · refine ⟨⟨by simp [hother, Producing], ?_, ?_⟩, ?_⟩
        · simpa [hmem] using hroles.consumer
        · simpa [hmem] using hroles.outside
        · simp [outstanding, hother, hmem, ht, pending, queued]
  | wake t ht =>
      obtain rfl := hroles.autoSaveThread (t := t) (by simp [ht, Producing])
      have hitem : s.item = none := hroles.item_none (by simp [ht])
      refine hroles.moveAutoSave rfl trivial (fun h => absurd hitem h) ?_
      rw [ht]
      rfl

end Flow

section Items

variable {δ : Type} {percentF : δ → List UInt8} {s s' : State δ} {m : Mallocs} {time : List UInt8}
  {blocks : List (Nat × Block δ)}

theorem free_spec {a : Nat} {b : Block δ} (h : Exactly s.memory ((a, b) :: blocks)) :
    ∃ memory, AutoLog.free a s = .ok { s with memory } ∧ Exactly memory blocks := by
  refine ⟨Function.update s.memory a none, ?_, h.free⟩
  simp [AutoLog.free, h.read List.mem_cons_self]

theorem pointedTo_spec {x : Stored δ} {a : Nat} {c : Content δ} (hbuf : x.buf = some (a, c))
    (h : Exactly s.memory (x.blocks ++ blocks)) : pointedTo (some a) s = .ok c := by
  have hmem : (a, Block.content c) ∈ x.blocks ++ blocks := by simp [Stored.blocks, hbuf]
  simp [pointedTo, h.read hmem]

theorem writeItem_spec {x : Stored δ} (hprintable : x.saved.Printable)
    (h : Exactly s.memory (x.blocks ++ blocks)) :
    writeItem percentF time x.type (x.buf.map Prod.fst) s = .ok { s with
      pfileData := s.pfileData ++ linesOf (Saved.data percentF) [(time, x.saved)]
      pAlarmfile := s.pAlarmfile ++ linesOf Saved.alarm [(time, x.saved)] } := by
  obtain ⟨item, type, buf⟩ := x
  cases type with
  | logData =>
      obtain ⟨d, hd⟩ := hprintable
      obtain ⟨⟨a, c⟩, rfl, rfl⟩ := Option.map_eq_some_iff.mp hd
      have hread := pointedTo_spec rfl h
      simp [writeItem, hread, bind, Except.bind, asLogData, pure, Except.pure, linesOf, Saved.data,
        Saved.alarm, Stored.saved, writeLog]
  | logHighTemp | logRadioException =>
      obtain ⟨bytes, hbytes, hnul⟩ := hprintable
      obtain ⟨⟨a, c⟩, rfl, rfl⟩ := Option.map_eq_some_iff.mp hbytes
      have hread := pointedTo_spec rfl h
      simp [writeItem, hread, bind, Except.bind, printedString, hnul, pure, Except.pure, linesOf,
        Saved.data, Saved.alarm, Stored.saved, writeLog]
  | logRssi | logSnr | logDistance | logAlarmEvent =>
      simp [writeItem, linesOf, Saved.data, Saved.alarm, Stored.saved]

theorem freeBuf_spec {x : Stored δ} (h : Exactly s.memory (x.blocks ++ blocks)) :
    ∃ memory, (freeBuf (x.buf.map Prod.fst) s >>= AutoLog.free x.item) = .ok { s with memory } ∧
      Exactly memory blocks := by
  cases hbuf : x.buf with
  | none =>
      simp only [Stored.blocks, hbuf, Option.toList_none, List.map_nil, List.cons_append,
        List.nil_append] at h
      exact free_spec h
  | some b =>
      simp only [Stored.blocks, hbuf, Option.toList_some, List.map_cons, List.map_nil,
        List.cons_append, List.nil_append] at h
      obtain ⟨memory, hfree, hafter⟩ := free_spec (h.perm (List.Perm.swap _ _ _))
      obtain ⟨memory', hfree', hafter'⟩ := @free_spec δ { s with memory } _ _ _ hafter
      refine ⟨memory', ?_, hafter'⟩
      simp only [Option.map_some, freeBuf, hfree]
      exact hfree'

/-- Printing writes the line of an item, if it has one, and frees its blocks. -/
theorem printLog_spec {x : Stored δ} (hprintable : x.saved.Printable)
    (h : Exactly s.memory (x.blocks ++ blocks)) :
    ∃ memory, printLog percentF time x.item s = .ok { s with
        memory
        pfileData := s.pfileData ++ linesOf (Saved.data percentF) [(time, x.saved)]
        pAlarmfile := s.pAlarmfile ++ linesOf Saved.alarm [(time, x.saved)] } ∧
      Exactly memory blocks := by
  have hitem : s.memory x.item = some (.item x.type (x.buf.map Prod.fst)) :=
    h.read (by simp [Stored.blocks])
  have hwrite := @writeItem_spec δ percentF s time blocks x hprintable h
  obtain ⟨memory, hfree, hafter⟩ := @freeBuf_spec δ { s with
    pfileData := s.pfileData ++ linesOf (Saved.data percentF) [(time, x.saved)]
    pAlarmfile := s.pAlarmfile ++ linesOf Saved.alarm [(time, x.saved)] } blocks x h
  refine ⟨memory, ?_, hafter⟩
  simp only [printLog, hitem, hwrite]
  exact hfree

/-- What a call has put into memory when it calls `auto_save`. -/
def mallocBuf (m : Mallocs) (buf : Option (Content δ)) (s : State δ) : State δ :=
  match buf with
  | none => s
  | some x => malloc m.buf (.content x) s

theorem autoSave_noMemory {type : QueueItemType} {buf : Option Nat} (hnode : m.newNode = none)
    (hvacant : s.memory m.item = none) : autoSave type buf m s = .ok s := by
  have hsame : Function.update s.memory m.item none = s.memory := by
    rw [← hvacant, Function.update_eq_self]
  simp [autoSave, hnode, TinyQueue.execute, malloc, bind, Except.bind, AutoLog.free, hsame]

theorem autoSave_push {type : QueueItemType} {buf : Option Nat} {a : Nat}
    (hnode : m.newNode = some a) :
    autoSave type buf m s = .ok { malloc m.item (.item type buf) s with
      queue := TinyQueue.moveTo .eventLoop (.pushing a m.item) { s.queue with
        heap := Function.update s.queue.heap a (some ⟨m.item, none⟩) } } := by
  simp [autoSave, hnode, TinyQueue.execute, malloc, bind, Except.bind, pure, Except.pure]

end Items

section Steps

variable {δ : Type} {percentF : δ → List UInt8} {s₀ s s' : State δ} {m : Mallocs}
  {L : Ledger (Saved δ) (List UInt8)} {l : Label δ}

theorem mallocBuf_frame (buf : Option (Content δ)) :
    (mallocBuf m buf s).queue = s.queue ∧ (mallocBuf m buf s).item = s.item ∧
      (mallocBuf m buf s).pfileData = s.pfileData ∧
      (mallocBuf m buf s).pAlarmfile = s.pAlarmfile := by
  cases buf <;> exact ⟨rfl, rfl, rfl, rfl⟩

theorem mallocBuf_exactly {blocks : List (Nat × Block δ)} (h : Exactly s.memory blocks)
    (hvacant : s.memory m.buf = none) (buf : Option (Content δ)) :
    Exactly (mallocBuf m buf s).memory
      (buf.toList.map (fun c => (m.buf, Block.content c)) ++ blocks) := by
  cases buf with
  | none => exact h
  | some c => exact h.allocate hvacant _

theorem mallocBuf_vacant (hcan : CanSave m s) (buf : Option (Content δ)) :
    (mallocBuf m buf s).memory m.item = none := by
  obtain ⟨-, hitem, -, hne, -⟩ := hcan
  cases buf with
  | none => exact hitem
  | some c => exact (Function.update_of_ne hne _ _).trans hitem

theorem push_step (hcan : CanSave m s) {a : Nat} (hnode : m.newNode = some a) :
    TinyQueue.Step s.queue (.push .eventLoop m.item (some a))
      (TinyQueue.moveTo .eventLoop (.pushing a m.item) { s.queue with
        heap := Function.update s.queue.heap a (some ⟨m.item, none⟩) }) := by
  obtain ⟨houtside, -, -, -, hnew⟩ := hcan
  exact ⟨⟨houtside, by simpa [hnode] using hnew⟩, rfl⟩

theorem Keeps.save (h : Keeps percentF s₀ s L) (hcan : CanSave m s) {x : Saved δ}
    (hprintable : x.Printable)
    (hsave : autoSave x.type (x.buf.map fun _ => m.buf) m (mallocBuf m x.buf s) = .ok s') :
    Keeps percentF s₀ s' (L.next (enter m x)) := by
  obtain ⟨hqueue, hitem, hdata, halarms⟩ := @mallocBuf_frame δ s m x.buf
  obtain ⟨xs, left, hxs, hwaiting, hall, hleft, hexactly⟩ := h.items
  have hmemory := mallocBuf_exactly hexactly hcan.2.2.1 x.buf
  have hvacant := mallocBuf_vacant hcan x.buf
  cases hnode : m.newNode with
  | none =>
      obtain rfl := Except.ok.inj ((autoSave_noMemory hnode hvacant).symm.trans hsave)
      have henter : enter m x = .lose x := by simp [enter, hnode]
      rw [henter]
      refine ⟨?_, ?_, ?_, ⟨xs, left ++ x.buf.toList.map fun c => (m.buf, c), ?_, hwaiting, hall,
        ?_, ?_⟩, ?_, ?_⟩
      · rw [hqueue]
        exact h.sound
      · rw [hqueue]
        exact h.held
      · rw [hqueue, hitem]
        exact h.roles
      · rw [hqueue, hitem]
        exact hxs
      · show _ = (L.lost ++ [x]).filterMap Saved.buf
        rw [List.filterMap_append, ← hleft, List.map_append]
        cases hbuf : x.buf <;> simp [hbuf]
      · refine hmemory.perm ?_
        rw [List.map_append, List.map_map, ← List.append_assoc]
        exact List.perm_append_comm
      · rw [hdata]
        exact h.data
      · rw [halarms]
        exact h.alarms
  | some a =>
      obtain rfl := Except.ok.inj ((autoSave_push hnode).symm.trans hsave)
      have henter : enter m x = .save x := by simp [enter, hnode]
      rw [henter]
      have hmoved := h.roles.pushed
        (Function.update s.queue.heap a (some ⟨m.item, none⟩)) a m.item hcan.1
      have hstep := push_step hcan hnode
      obtain ⟨stored, hstored⟩ : ∃ stored : Stored δ,
          stored = ⟨m.item, x.type, x.buf.map fun c => (m.buf, c)⟩ := ⟨_, rfl⟩
      have hsaved : stored.saved = x := by
        rw [hstored]
        simp [Stored.saved]
      refine ⟨?_, ?_, ?_, ⟨xs ++ [stored], left, ?_, ?_, ?_, hleft, ?_⟩, ?_, ?_⟩
      · simp only [hqueue]
        exact h.sound.step hstep
      · simp only [hqueue]
        exact held_step h.held (TinyQueue.moved_of_step hstep)
      · simp only [malloc, hqueue, hitem]
        exact hmoved.1
      · simp only [malloc, hqueue, hitem]
        rw [hmoved.2, List.map_append, hxs, hstored]
        rfl
      · rw [Ledger.next, Ledger.waiting_save, List.map_append, hwaiting, List.map_singleton,
          hsaved]
      · intro y hy
        rcases List.mem_append.mp hy with hmem | hlast
        · exact hall y hmem
        · obtain rfl := List.mem_singleton.mp hlast
          rw [hsaved]
          exact hprintable
      · have hall := hmemory.allocate hvacant (.item x.type (x.buf.map fun _ => m.buf))
        refine hall.perm ?_
        have hblocks : stored.blocks = (m.item, Block.item x.type (x.buf.map fun _ => m.buf)) ::
            x.buf.toList.map fun c => (m.buf, Block.content c) := by
          rw [hstored]
          cases hbuf : x.buf <;> simp [Stored.blocks]
        rw [List.flatMap_append, List.flatMap_singleton, hblocks, List.append_assoc,
          ← List.cons_append]
        exact List.perm_append_comm_assoc _ _ _
      · exact hdata.trans h.data
      · exact halarms.trans h.alarms

theorem linesOf_append (text : Saved δ → Option (List UInt8))
    (written later : List (List UInt8 × Saved δ)) :
    linesOf text (written ++ later) = linesOf text written ++ linesOf text later :=
  List.filterMap_append

theorem outstanding_some {item : Nat} (hitem : s.item = some item) :
    outstanding s.queue s.item = item :: outstanding s.queue none := by
  rw [hitem]
  rfl

theorem Keeps.print (h : Keeps percentF s₀ s L) {item : Nat} (hitem : s.item = some item)
    (time : List UInt8) :
    ∃ s', printLog percentF time item s = .ok s' ∧ s'.queue = s.queue ∧
      Keeps percentF s₀ { s' with item := none } (L.next (.write time)) := by
  obtain ⟨xs, left, hxs, hwaiting, hall, hleft, hexactly⟩ := h.items
  rw [outstanding_some hitem] at hxs
  obtain ⟨x, rest, rfl, rfl, hrest⟩ := List.map_eq_cons_iff.mp hxs
  have hwaits : L.waiting = x.saved :: rest.map Stored.saved := hwaiting.symm
  rw [List.flatMap_cons, List.append_assoc] at hexactly
  obtain ⟨memory, hprint, hafter⟩ := printLog_spec (hall x List.mem_cons_self) hexactly
  refine ⟨_, hprint, rfl, ?_⟩
  rw [Ledger.next_write hwaits]
  have hroles : Roles s.queue none :=
    { producer := h.roles.producer
      consumer := h.roles.consumer
      outside := fun hne => absurd rfl hne }
  have hprintable : ∀ y ∈ rest, y.saved.Printable :=
    fun y hy => hall y (List.mem_cons_of_mem _ hy)
  refine ⟨h.sound, h.held, hroles, ⟨rest, left, hrest, ?_, hprintable, hleft, hafter⟩, ?_, ?_⟩
  · exact (Ledger.waiting_write hwaits).symm
  · show s.pfileData ++ _ = s₀.pfileData ++ linesOf _ (L.written ++ [(time, x.saved)])
    rw [linesOf_append, ← List.append_assoc, ← h.data]
  · show s.pAlarmfile ++ _ = s₀.pAlarmfile ++ linesOf _ (L.written ++ [(time, x.saved)])
    rw [linesOf_append, ← List.append_assoc, ← h.alarms]

theorem Keeps.queue (h : Keeps percentF s₀ s L) {l : TinyQueue.Label Thread Nat}
    {q' : TinyQueue.State Thread Nat} (hown : OwnStep s l) (hstep : TinyQueue.Step s.queue l q') :
    Keeps percentF s₀ { s with queue := q', item := received s l } L := by
  have hmoved := TinyQueue.moved_of_step hstep
  obtain ⟨hroles, hsame⟩ := queue_step h.sound h.roles hown hmoved
  obtain ⟨xs, left, hxs, hrest⟩ := h.items
  have hitems : xs.map Stored.item = outstanding q' (received s l) := hxs.trans hsame.symm
  exact
    { sound := h.sound.step hstep
      held := held_step h.held hmoved
      roles := hroles
      items := ⟨xs, left, hitems, hrest⟩
      data := h.data
      alarms := h.alarms }

theorem execute_called (percentF : δ → List UInt8) {x : Saved δ} (hcalled : called l = some (m, x))
    (hpossible : Possible s l) (hadmissible : Admissible l) :
    CanSave m s ∧ x.Printable ∧ execute percentF s l =
      autoSave x.type (x.buf.map fun _ => m.buf) m (mallocBuf m x.buf s) := by
  cases l with
  | queue => cases hcalled
  | printLog => cases hcalled
  | myLogData d m =>
      obtain ⟨rfl, rfl⟩ := Prod.mk.inj (Option.some.inj hcalled)
      exact ⟨hpossible, ⟨d, rfl⟩, rfl⟩
  | autoSaveAlarmLog data dataLen type m =>
      obtain ⟨rfl, rfl⟩ := Prod.mk.inj (Option.some.inj hcalled)
      obtain ⟨hle, htype, hnul⟩ := hadmissible
      refine ⟨hpossible, ?_, ?_⟩
      · by_cases hzero : dataLen = 0
        · subst hzero
          cases type <;> simp [Saved.Printable] at htype hnul ⊢
        · rw [if_neg hzero]
          cases type with
          | logData => exact absurd rfl htype
          | logHighTemp => exact ⟨_, rfl, hnul (.inl rfl)⟩
          | logRadioException => exact ⟨_, rfl, hnul (.inr rfl)⟩
          | logRssi | logSnr | logDistance | logAlarmEvent => trivial
      · by_cases hzero : dataLen = 0
        · simp [execute, autoSaveAlarmLog, hzero, mallocBuf]
        · simp [execute, autoSaveAlarmLog, hzero, mallocBuf, Nat.not_lt.mpr hle]

theorem autoSave_ok {x : Saved δ} (hcan : CanSave m s) : ∃ s',
    autoSave x.type (x.buf.map fun _ => m.buf) m (mallocBuf m x.buf s) = .ok s' := by
  cases hnode : m.newNode with
  | none => exact ⟨_, autoSave_noMemory hnode (mallocBuf_vacant hcan x.buf)⟩
  | some a => exact ⟨_, autoSave_push hnode⟩

theorem Keeps.step (h : Keeps percentF s₀ s L) (hadmissible : Admissible l)
    (hpossible : Possible s l) :
    ∃ s', execute percentF s l = .ok s' ∧ Keeps percentF s₀ s' (L.after (entries l)) := by
  cases l with
  | myLogData | autoSaveAlarmLog =>
      obtain ⟨hcan, hprintable, hexecute⟩ :=
        execute_called percentF rfl hpossible hadmissible
      obtain ⟨s', hs'⟩ := autoSave_ok hcan
      exact ⟨s', hexecute.trans hs', h.save hcan hprintable hs'⟩
  | queue l =>
      obtain ⟨hqueue, hown⟩ := hpossible
      obtain ⟨⟨cells, hcells, -⟩, -⟩ := h.sound
      obtain ⟨q', hq'⟩ := hcells.progress hqueue
      refine ⟨{ s with queue := q', item := received s l }, ?_, h.queue hown ⟨hqueue, hq'⟩⟩
      simp [execute, hq', bind, Except.bind, pure, Except.pure]
  | printLog time =>
      obtain ⟨item, hitem⟩ := Option.ne_none_iff_exists'.mp hpossible
      obtain ⟨s', hprint, -, hkeeps⟩ := h.print hitem time
      refine ⟨{ s' with item := none }, ?_, hkeeps⟩
      simp [execute, hitem, hprint, bind, Except.bind, pure, Except.pure]

theorem Keeps.run {trs : List (Transition (State δ) (Label δ))} {t : State δ}
    (h : Keeps percentF s₀ s L) (hrun : Run (Step percentF) s trs t)
    (hadmissible : ∀ tr ∈ trs, Admissible tr.label) :
    Keeps percentF s₀ t (L.after (entriesOf trs)) := by
  induction hrun generalizing L with
  | nil => exact h
  | @cons a b c l trs hstep _ ih =>
      obtain ⟨hpossible, hexecute⟩ := hstep
      obtain ⟨b', hb', hkeeps⟩ := h.step (hadmissible ⟨a, l, b⟩ (by simp)) hpossible
      obtain rfl := Except.ok.inj (hexecute.symm.trans hb')
      rw [entriesOf, List.flatMap_cons, Ledger.after_append]
      exact ih hkeeps fun tr htr => hadmissible tr (by simp [htr])

theorem keeps_start (percentF : δ → List UInt8) {autologFileNum : Int}
    {fopen : String → Option (List Line)} {created : Bool}
    (hs : autoLogStart autologFileNum fopen created = .ok s₀) :
    Keeps percentF s₀ s₀ Ledger.empty := by
  simp only [autoLogStart] at hs
  split at hs
  · cases hs
  · cases hs
  · split at hs
    · obtain rfl := Except.ok.inj hs
      refine ⟨TinyQueue.sound_create, ?_, ?_, ?_, ?_, ?_⟩
      · intro u hu
        cases hu
      · exact ⟨trivial, trivial, fun hne => absurd rfl hne⟩
      · exact ⟨[], [], rfl, rfl, by simp, rfl, exactly_nil⟩
      · exact (List.append_nil _).symm
      · exact (List.append_nil _).symm
    · cases hs

/-- What `auto_save_thread` has written is what was saved, in order, but for the items on
their way; the memory in use is that of these items, and the `buf`s of calls without a
node. No call or print follows a bad pointer. -/
theorem log_keeps_ledger {autologFileNum : Int} {fopen : String → Option (List Line)}
    {created : Bool} {trs : List (Transition (State δ) (Label δ))}
    (hs : autoLogStart autologFileNum fopen created = .ok s₀)
    (hrun : Run (Step percentF) s₀ trs s) (hadmissible : ∀ tr ∈ trs, Admissible tr.label) :
    (ledger trs).saved = savedBy trs ∧
      s.pfileData = s₀.pfileData ++ linesOf (Saved.data percentF) (ledger trs).written ∧
      s.pAlarmfile = s₀.pAlarmfile ++ linesOf Saved.alarm (ledger trs).written ∧
      (∃ (xs : List (Stored δ)) (left : List (Nat × Content δ)),
        xs.map Stored.item = outstanding s.queue s.item ∧
        xs.map Stored.saved = (ledger trs).waiting ∧
        left.map Prod.snd = (lostBy trs).filterMap Saved.buf ∧
        Exactly s.memory (xs.flatMap Stored.blocks ++ left.map fun b => (b.1, .content b.2))) ∧
      ∀ l, Admissible l → Possible s l → ∃ s', execute percentF s l = .ok s' := by
  have hkeeps : Keeps percentF s₀ s (ledger trs) := (keeps_start percentF hs).run hrun hadmissible
  obtain ⟨hsaved, hlost⟩ :=
    (Ledger.empty : Ledger (Saved δ) (List UInt8)).after_saved (entriesOf trs)
  obtain ⟨xs, left, hxs, hwaiting, -, hleft, hexactly⟩ := hkeeps.items
  refine ⟨hsaved, hkeeps.data, hkeeps.alarms, ⟨xs, left, hxs, hwaiting, ?_, hexactly⟩, ?_⟩
  · rw [hleft, ledger, hlost]
    rfl
  · intro l hl hpossible
    obtain ⟨s', hs', -⟩ := hkeeps.step hl hpossible
    exact ⟨s', hs'⟩

end Steps

/-- Empty files. -/
def startState : State Nat where
  queue := TinyQueue.tinyQueueCreate
  memory := fun _ => none
  item := none
  pfileData := []
  pAlarmfile := []

/-- A high temperature is saved and written; there is no node for a second one. -/
def saveTwice : List (Label Nat) :=
  [.autoSaveAlarmLog [104, 0] 2 .logHighTemp ⟨10, 11, some 0⟩, .queue (.lock .eventLoop),
    .queue (.act .eventLoop), .queue (.unlock .eventLoop), .queue (.signal .eventLoop []),
    .autoSaveAlarmLog [105, 0] 2 .logHighTemp ⟨12, 13, none⟩, .queue (.pop .autoSaveThread),
    .queue (.lock .autoSaveThread), .queue (.act .autoSaveThread),
    .queue (.unlock .autoSaveThread), .printLog [49]]

theorem log_keeps_ledger_twice :
    ∃ (trs : List (Transition (State Nat) (Label Nat))) (s : State Nat),
      Run (Step fun _ => []) startState trs s ∧ trs.map (fun tr => tr.label) = saveTwice ∧
      savedBy trs = [⟨.logHighTemp, some (.text [104, 0])⟩] ∧
      lostBy trs = [⟨.logHighTemp, some (.text [105, 0])⟩] ∧
      (ledger trs).saved = savedBy trs ∧ (ledger trs).waiting = [] ∧
      s.pAlarmfile = linesOf Saved.alarm (ledger trs).written ∧
      (∃ (xs : List (Stored Nat)) (left : List (Nat × Content Nat)),
        xs.map Stored.item = outstanding s.queue s.item ∧
        xs.map Stored.saved = (ledger trs).waiting ∧
        left.map Prod.snd = (lostBy trs).filterMap Saved.buf ∧
        Exactly s.memory (xs.flatMap Stored.blocks ++ left.map fun b => (b.1, .content b.2))) := by
  obtain ⟨trs, s, hreplay, hlabels, hsaved, hlost, hwaiting⟩ :
      ∃ trs s, replay (attempt Possible (execute fun _ => [])) startState saveTwice =
          some (trs, s) ∧
        trs.map (fun tr => tr.label) = saveTwice ∧
        savedBy trs = [⟨.logHighTemp, some (.text [104, 0])⟩] ∧
        lostBy trs = [⟨.logHighTemp, some (.text [105, 0])⟩] ∧ (ledger trs).waiting = [] :=
    ⟨_, _, rfl, rfl, rfl, rfl, rfl⟩
  have hadmissible : ∀ tr ∈ trs, Admissible tr.label := by
    intro tr htr
    have hall : ∀ l ∈ saveTwice, Admissible l := by decide
    exact hall tr.label (hlabels ▸ List.mem_map_of_mem htr)
  have hrun := run_of_attempts hreplay
  obtain ⟨hledger, -, halarms, hitems, -⟩ :=
    @log_keeps_ledger Nat (fun _ => []) startState s 0 (fun _ => some []) true trs rfl hrun
      hadmissible
  exact ⟨trs, s, hrun, hlabels, hsaved, hlost, hledger, hwaiting, halarms, hitems⟩

end GwWeb.LogLedger
