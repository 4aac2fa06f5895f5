import GwWeb.WriteIsolation

/-!
The operations on the write components keep them isolated. A write thread does
not fail then, nor does the handling of its message.
-/

namespace GwWeb.WriteIsolation

open DrainedQueue
open GwWeb.WebCommon

section Drains

variable {n k : Nat} {t : WriteFile} {r : Recording} {items : List QueueItem}

theorem drain_push (item : QueueItem) (hitems : r.queue = some items) :
    drain { r with queue := some (items ++ [item]) } =
      { drain r with items := (drain r).items ++ [datum item] } := by
  simp [drain, hitems]

theorem datum_terminator : datum .terminator = none := rfl

theorem datum_of_ne_nil {buf : List UInt8} (hbuf : buf ≠ []) : datum { buf } = some buf := by
  simp [datum, hbuf]

theorem Current.disable (h : Current n k t r) : Current n k { t with enable := 0 } r where
  file := h.file
  node := h.node
  isOpen := h.isOpen
  queue := h.queue
  pops := h.pops
  accounted := h.accounted
  enabled := by simp

theorem Current.stop (h : Current n k t r) (hitems : r.queue = some items) :
    Current n k { t with enable := 0 } { r with queue := some (items ++ [.terminator]) } where
  file := h.file
  node := h.node
  isOpen := h.isOpen
  queue := rfl
  pops := h.pops
  accounted := by
    rw [drain_push _ hitems, datum_terminator]
    exact h.accounted.step (.stop _)
  enabled := by simp

theorem Current.push (h : Current n k t r) (hitems : r.queue = some items)
    (henable : t.enable = 1) {buf : List UInt8} (hbuf : buf ≠ []) :
    Current n k t
      { r with queue := some (items ++ [{ buf }]), queued := r.queued ++ [buf] } := by
  have hopen := h.enabled henable
  have hdrain : drain { r with
        queue := some (items ++ [{ buf }]), queued := r.queued ++ [buf] } =
      { drain r with
        queued := (drain r).queued ++ [buf], items := (drain r).items ++ [some buf] } := by
    have hpush := drain_push { buf } hitems
    rw [datum_of_ne_nil hbuf] at hpush
    simp only [drain] at hpush ⊢
    simpa using hpush
  refine ⟨h.file, h.node, h.isOpen, rfl, h.pops, ?_, fun _ => ?_⟩
  · rw [hdrain]
    exact h.accounted.step (.push _ buf hopen)
  · rw [hdrain]
    refine ⟨?_, hopen.2⟩
    simpa using hopen.1

theorem Current.move (h : Current n k t r) {st : WriterState}
    (hpops : ∀ q, st = .pop q → q = some k) (hheld : heldBy (some st) = heldBy r.writer)
    (hstopped : hasStopped (some st) = hasStopped r.writer) :
    Current n k t { r with writer := some st } := by
  have hdrain : drain { r with writer := some st } = drain r := by
    simp only [drain, hheld, hstopped]
  refine ⟨h.file, h.node, h.isOpen, h.queue, ?_, hdrain ▸ h.accounted, hdrain ▸ h.enabled⟩
  intro q hq
  exact hpops q (Option.some.inj hq)

theorem Current.take (h : Current n k t r) {item : QueueItem}
    (hitems : r.queue = some (item :: items)) {q : Option Nat} (hpop : r.writer = some (.pop q)) :
    Current n k t
      { r with
        queue := some items
        writer := some (if item.buf.length = 0 then .post else .write item.buf) } := by
  have hhead : (drain r).items = datum item :: items.map datum := by simp [drain, hitems]
  have hheld : (drain r).held = none := by simp [drain, hpop, heldBy]
  have hstopped : (drain r).stopped = false := by simp [drain, hpop, hasStopped]
  rcases Nat.eq_zero_or_pos item.buf.length with hzero | hpos
  · have hnone : datum item = none := by simp [datum, hzero]
    rw [if_pos hzero]
    refine ⟨h.file, h.node, h.isOpen, rfl, by simp, ?_, fun henable => ?_⟩
    · have hstep := h.accounted.step (.takeStop _ _ (hnone ▸ hhead) hheld)
      simpa [drain, hpop, heldBy, hasStopped] using hstep
    · -- a terminator is queued with `enable` at 0 only
      have hopen := (h.enabled henable).1
      rw [hhead, hnone] at hopen
      simp at hopen
  · have hne : item.buf.length ≠ 0 := Nat.ne_of_gt hpos
    have hsome : datum item = some item.buf := by simp [datum, hne]
    rw [if_neg hne]
    refine ⟨h.file, h.node, h.isOpen, rfl, by simp, ?_, fun henable => ⟨?_, rfl⟩⟩
    · have hstep := h.accounted.step (.take _ _ _ (hsome ▸ hhead) hheld)
      simpa [drain, hpop, heldBy, hasStopped] using hstep
    · have hopen := (h.enabled henable).1
      rw [hhead, List.mem_cons, not_or] at hopen
      exact hopen.2

theorem Current.put (h : Current n k t r) {buf : List UInt8}
    (hwrite : r.writer = some (.write buf)) :
    Current n k t { r with written := r.written ++ [buf], writer := some .fetch } := by
  have hheld : (drain r).held = some buf := by simp [drain, hwrite, heldBy]
  refine ⟨h.file, h.node, h.isOpen, h.queue, by simp, ?_, fun henable => ?_⟩
  · have hstep := h.accounted.step (.put _ _ hheld)
    simpa [drain, hwrite, heldBy, hasStopped] using hstep
  · exact ⟨(h.enabled henable).1, rfl⟩

theorem current_launched (n k : Nat) (t : WriteFile) (hfile : t.file = some k)
    (fileName : String) :
    Current n k t
      { node := n, fileName, written := [], isOpen := true, queue := some [],
        writer := some .fetch, queued := [] } where
  file := hfile
  node := rfl
  isOpen := rfl
  queue := rfl
  pops := by simp
  accounted := accounted_empty
  enabled := fun _ => ⟨by simp [drain], rfl⟩

end Drains

variable {w w' : WriteComponent} {allocated n k : Nat} {freed : List Nat} {t : WriteFile}

theorem isolated_informStop (h : Isolated w allocated freed) {r : SaveReplies}
    (hok : informStop n r w = .ok w') : Isolated w' allocated freed := by
  obtain ⟨t, hslot, ⟨-, rfl⟩ | ⟨-, k, items, hq, hitems, rfl⟩⟩ := informStop_ok hok
  · rcases Option.eq_none_or_eq_some t.queue with hq | ⟨k, hq⟩
    · refine h.setUnqueued ?_ (h.lt_allocated hslot) (h.not_freed hslot) hq (by simp)
      intro t' hslot'
      obtain rfl := Option.some.inj (hslot.symm.trans hslot')
      exact hq
    · have hcur := (h.current n t k hslot hq).2
      have hq' : ({ t with enable := 0 } : WriteFile).queue = some k := hq
      have hupdate := h.update hslot hq hq' hcur.disable Iff.rfl
      rwa [WriteComponent.setRecording_self] at hupdate
  · have hcur := (h.current n t k hslot hq).2
    exact h.update hslot hq hq (hcur.stop hitems) Iff.rfl

theorem isolated_queueRecord (h : Isolated w allocated freed) (hslot : w.fileT n = some t)
    (henable : t.enable = 1) {buf : List UInt8} (hbuf : buf ≠ []) {memory : Bool}
    (hok : queueRecord t buf memory w = .ok w') : Isolated w' allocated freed := by
  rcases queueRecord_ok hok with ⟨-, rfl⟩ | ⟨-, k, items, hq, hitems, rfl⟩
  · exact h
  · have hcur := (h.current n t k hslot hq).2
    exact h.setRecording hslot hq (hcur.push hitems henable hbuf) Iff.rfl

theorem isolated_sendToSave {record : Except Fault (List UInt8)} {knowsTwo : Bool}
    {r : SaveReplies} (hrecord : ∀ buf, record = .ok buf → buf ≠ []) (nodes : List Nat)
    (h : Isolated w allocated freed) (hok : sendToSave record knowsTwo r nodes w = .ok w') :
    Isolated w' allocated freed := by
  replace hok := sent_of_sendToSave hok
  induction hok with
  | done | ended => exact h
  | skipped _ _ ih => exact ih h
  | queued hslot henable hbuf hqueue _ ih =>
      exact ih (isolated_queueRecord h hslot henable (hrecord _ hbuf) hqueue)
  | stopped _ _ hstop _ ih => exact ih (isolated_informStop h hstop)

theorem isolated_startSave (h : Isolated w allocated freed) (hslot : w.fileT n = some t)
    (hq : t.queue = none) (henable : t.enable ≠ 1) (name : String) (r : SaveReplies) :
    Isolated (startSave n t name r w).2 allocated freed := by
  have hidle : Unqueued w n := by
    intro t' hslot'
    obtain rfl := Option.some.inj (hslot.symm.trans hslot')
    exact hq
  have hn := h.lt_allocated hslot
  have hfreed := h.not_freed hslot
  unfold startSave
  split
  · dsimp only
    split
    · have hcur := current_launched n w.starts
        { enable := 1, queue := some w.starts, fileName := logDirectory ++ name,
          file := some w.starts } rfl (logDirectory ++ name)
      exact h.start hidle hn hfreed hcur.fileKept (by simp) (.inl ⟨rfl, hcur⟩)
    · -- the file stays open, its node is free for another start
      exact h.start hidle hn hfreed ⟨List.prefix_rfl, fun _ => rfl⟩ (by simp)
        (.inr ⟨rfl, henable, rfl⟩)
  · exact h.setUnqueued hidle hn hfreed hq henable

theorem isolated_saveCommand (h : Isolated w allocated freed) {already : Int} {root : CJson}
    {r : SaveReplies} {ret : Int} (hok : saveCommand already n root r w = .ok (ret, w'))
    (hfresh : valueint root "op_cmd" = .ok 1 →
      ∀ t, w.fileT n = some t → t.enable ≠ 1 → t.queue = none) :
    Isolated w' allocated freed := by
  obtain ⟨opCmd, hcmd, hok⟩ := bind_eq_ok.mp hok
  have hsame : ∀ x : Int, Except.ok (ε := Fault) (x, w) = .ok (ret, w') →
      Isolated w' allocated freed := by
    intro x hx
    obtain rfl := (Prod.mk.inj (Except.ok.inj hx)).2
    exact h
  split at hok
  · cases hok
  · rename_i t hslot
    split at hok
    · split at hok
      · exact hsame _ hok
      · obtain ⟨w₁, hstop, hok⟩ := bind_eq_ok.mp hok
        obtain rfl := (Prod.mk.inj (Except.ok.inj hok)).2
        exact isolated_informStop h hstop
    · split at hok
      · rename_i hone
        split at hok
        · exact hsame _ hok
        · rename_i henable
          obtain ⟨name, -, hok⟩ := bind_eq_ok.mp hok
          have hq := hfresh (hone ▸ hcmd) t hslot henable
          have hstart := isolated_startSave h hslot hq henable name r
          rwa [Except.ok.inj hok] at hstart
      · exact hsame _ hok

theorem writeFileOf_ok (h : Isolated w allocated freed) (hslot : w.fileT n = some t) :
    writeFileOf freed n w = .ok t := by
  simp [writeFileOf, h.not_freed hslot, hslot]

theorem isolated_writeThread (h : Isolated w allocated freed) (k : Nat) :
    ∃ w', writeThread freed k w = .ok w' ∧ Isolated w' allocated freed := by
  rcases hwriter : (w.recording k).writer with _ | st
  · exact ⟨w, by simp [writeThread, hwriter], h⟩
  rcases eq_or_ne st .exited with rfl | hlive
  · exact ⟨w, by simp [writeThread, hwriter], h⟩
  obtain ⟨t, hslot, hq⟩ := h.live k st hwriter hlive
  have hcur := (h.current _ t k hslot hq).2
  have hfile := writeFileOf_ok h hslot
  have hunposted : (w.recording k).writer ≠ some .exited := by
    rw [hwriter]
    simpa using hlive
  have hexit : ∀ st' : WriterState, st' ≠ .exited →
      (some st' = some .exited ↔ (w.recording k).writer = some .exited) := by
    intro st' hst'
    simp [hst', hunposted]
  cases st with
  | fetch =>
      refine ⟨_, by simp only [writeThread, hwriter, hfile]; rfl, ?_⟩
      refine h.setRecording hslot hq (hcur.move ?_ ?_ ?_) (hexit _ (by simp))
      · intro q hpop
        exact (WriterState.pop.inj hpop).symm.trans hq
      · simp [hwriter, heldBy]
      · simp [hwriter, hasStopped]
  | pop queue =>
      obtain rfl := hcur.pops queue hwriter
      obtain ⟨items, hitems⟩ := Option.isSome_iff_exists.mp hcur.queue
      cases items with
      | nil => exact ⟨w, by simp [writeThread, hwriter, hitems], h⟩
      | cons item items =>
          refine ⟨_, by simp only [writeThread, hwriter, hitems]; rfl, ?_⟩
          simp only [WriteComponent.recording_setRecording,
            WriteComponent.setRecording_setRecording]
          refine h.setRecording hslot hq (hcur.take hitems hwriter) (hexit _ ?_)
          split <;> simp
  | write buf =>
      have hwrite : fwrite t.file buf w = .ok (w.setRecording k
          { w.recording k with written := (w.recording k).written ++ [buf] }) := by
        simp [fwrite, hcur.file, hcur.isOpen]
      refine ⟨_, by simp only [writeThread, hwriter, hfile, bind, Except.bind, hwrite]; rfl, ?_⟩
      simp only [WriteComponent.recording_setRecording, WriteComponent.setRecording_setRecording]
      exact h.setRecording hslot hq (hcur.put hwriter) (hexit _ (by simp))
  | post =>
      refine ⟨_, by simp only [writeThread, hwriter]; rfl, ?_⟩
      refine h.post hslot hq (hcur.move ?_ ?_ ?_) rfl hunposted
      · simp
      · simp [hwriter, heldBy]
      · simp [hwriter, hasStopped]
  | exited => exact absurd rfl hlive

theorem clearWriteStatus_ok (h : Isolated w allocated freed) {m : ClearStatus}
    {ms : List ClearStatus} (hposted : w.posted = m :: ms) :
    clearWriteStatus freed m.node { w with posted := ms } = .ok (cleared w m ms) := by
  obtain ⟨-, t, hslot, hq⟩ := h.posted m (by simp [hposted])
  have hcur := (h.current m.node t m.writer hslot hq).2
  obtain ⟨items, hitems⟩ := Option.isSome_iff_exists.mp hcur.queue
  have hfile : writeFileOf freed m.node { w with posted := ms } = .ok t := by
    simp [writeFileOf, h.not_freed hslot, hslot]
  have hclose : fclose t.file { w with posted := ms } = .ok ({ w with posted := ms }.setRecording
      m.writer { w.recording m.writer with isOpen := false }) := by
    simp [fclose, hcur.file, hcur.isOpen]
  simp only [clearWriteStatus, hfile, hclose, bind, Except.bind]
  simp [tinyQueueDestory, hq, hitems, pure, Except.pure, cleared]

end GwWeb.WriteIsolation
