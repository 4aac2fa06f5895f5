import GwWeb.SampleRecords
import GwWeb.SaveIsolation
import GwWeb.WriteThreads

/-!
One recording from its producer to its file: `send_rssi_to_save` queues records
for a node, `inform_stop_rssi_write_thread` the terminator, and the write thread
of the node writes what it pops.
-/

namespace GwWeb.SavedFile

open StreamDecoding
open TransitionRuns
open GwWeb.WebCommon
open GwWeb.MosquittoBroker
open GwWeb.EventProcess
open GwWeb.WriteSlots
open GwWeb.WriteThreads
open GwWeb.WriteIsolation
open GwWeb.SaveIsolation
open GwWeb.SaveNodes
open GwWeb.SampleRecords

/-- A call of one of the three, the last for the write thread of any start
command. -/
inductive SaveCall where
  | sendRssiToSave (msg : RssiPriv) (r : SaveReplies)
  | informStopRssiWriteThread (connfd : Int) (r : SaveReplies)
  | rssiWriteThread (k : Nat)

/-- What a call does to the broker. -/
def perform (g : GBrokerPara) : SaveCall → Except Fault GBrokerPara
  | .sendRssiToSave msg r => sendRssiToSave msg r g
  | .informStopRssiWriteThread connfd r => informStopRssiWriteThread connfd r g
  | .rssiWriteThread k => rssiWriteThread k g

def Calls (g : GBrokerPara) (c : SaveCall) (g' : GBrokerPara) : Prop := perform g c = .ok g'

/-- Node `n` records with start command `k`; no other node has its queue, and no
other write thread works for the node, pops from the queue or writes to the file. -/
structure Alone (n k : Nat) (w : WriteComponent) : Prop where
  slot : ∃ t, w.fileT n = some t ∧ t.queue = some k ∧ (t.enable = 0 ∨ t.enable = 1) ∧
    Current n k t (w.recording k)
  queues : ∀ m t, m ≠ n → w.fileT m = some t → t.queue ≠ some k
  writers : ∀ j, j ≠ k → busy (w.recording j) = true → (w.recording j).node ≠ n ∧
    (w.recording j).writer ≠ some (.pop (some k)) ∧
    ∀ t, w.fileT (w.recording j).node = some t → t.file ≠ some k

/-- The message whose record a call put into queue `k`. -/
def queuedBy (k : Nat) (tr : Transition GBrokerPara SaveCall) : Option RssiPriv :=
  match tr.label with
  | .sendRssiToSave msg _ =>
      if (tr.after.save.recording k).queue.map List.length =
          (tr.before.save.recording k).queue.map List.length then none
      else some msg
  | _ => none

/-- The messages queued for recording `k`, in order. -/
def messages (k : Nat) (trs : List (Transition GBrokerPara SaveCall)) : List RssiPriv :=
  trs.filterMap (queuedBy k)

/-- The messages a file can hold: `int32_t` times, and 0 to 60000 bytes. -/
structure Fits (msg : RssiPriv) : Prop where
  sec : InInt32 msg.tvSec
  usec : InInt32 msg.tvUsec
  nonneg : 0 ≤ msg.rssiBufLen
  le : msg.rssiBufLen ≤ 60000

/-- The bytes of `rssi_buf`. -/
def dataOf (msg : RssiPriv) : List UInt8 := (List.range msg.rssiBufLen.toNat).map msg.rssiBuf

/-- The fields of a message that are saved. -/
def fields (msg : RssiPriv) : Int × Int × List UInt8 := (msg.tvSec, msg.tvUsec, dataOf msg)

variable {w w' w'' : WriteComponent} {n k m : Nat} {t : WriteFile} {r : SaveReplies}

theorem alone_of_isolated {allocated : Nat} {freed : List Nat} (h : Isolated w allocated freed)
    (hslot : w.fileT n = some t) (hqueue : t.queue = some k)
    (henable : t.enable = 0 ∨ t.enable = 1) : Alone n k w where
  slot := ⟨t, hslot, hqueue, henable, (h.current n t k hslot hqueue).2⟩
  queues := by
    intro m t' hm hslot' hqueue'
    exact hm (h.node_unique hslot hqueue hslot' hqueue')
  writers := by
    intro j hj hbusy
    obtain ⟨st, hst, hlive⟩ : ∃ st, (w.recording j).writer = some st ∧ st.Live := by
      cases hwriter : (w.recording j).writer with
      | none => simp [busy, hwriter] at hbusy
      | some st =>
          refine ⟨st, rfl, ?_⟩
          rintro rfl
          simp [busy, hwriter] at hbusy
    obtain ⟨t', hslot', hqueue'⟩ := h.live j st hst hlive
    have hcur := (h.current _ t' j hslot' hqueue').2
    refine ⟨?_, fun hpop => ?_, fun t'' hslot'' hfile => ?_⟩
    · rintro rfl
      obtain rfl := Option.some.inj (hslot.symm.trans hslot')
      exact hj (Option.some.inj (hqueue'.symm.trans hqueue))
    · exact hj (Option.some.inj (hcur.pops _ hpop)).symm
    · obtain rfl := Option.some.inj (hslot'.symm.trans hslot'')
      exact hj (Option.some.inj (hcur.file.symm.trans hfile))

section Elsewhere

/-- What happens to other nodes, queues and write threads. -/
structure Elsewhere (n k : Nat) (w w' : WriteComponent) : Prop where
  recording : w'.recording k = w.recording k
  slot : w'.fileT n = w.fileT n
  slots : ∀ m t', m ≠ n → w'.fileT m = some t' →
    ∃ t, w.fileT m = some t ∧ t'.queue = t.queue ∧ t'.file = t.file
  writers : ∀ j, j ≠ k → busy (w'.recording j) = true → busy (w.recording j) = true ∧
    (w'.recording j).node = (w.recording j).node ∧
    ((w'.recording j).writer = (w.recording j).writer ∨
      (w'.recording j).writer ≠ some (.pop (some k)))

theorem Elsewhere.refl (n k : Nat) (w : WriteComponent) : Elsewhere n k w w where
  recording := rfl
  slot := rfl
  slots := fun _ t' _ hslot => ⟨t', hslot, rfl, rfl⟩
  writers := fun _ _ hbusy => ⟨hbusy, rfl, .inl rfl⟩

theorem Alone.elsewhere (h : Alone n k w) (he : Elsewhere n k w w') : Alone n k w' where
  slot := by
    rw [he.slot, he.recording]
    exact h.slot
  queues := by
    intro m t' hm hslot'
    obtain ⟨t, hslot, hqueue, -⟩ := he.slots m t' hm hslot'
    rw [hqueue]
    exact h.queues m t hm hslot
  writers := by
    intro j hj hbusy'
    obtain ⟨hbusy, hnode, hwriter⟩ := he.writers j hj hbusy'
    obtain ⟨hne, hpop, hfile⟩ := h.writers j hj hbusy
    rw [hnode]
    refine ⟨hne, ?_, fun t' hslot' => ?_⟩
    · rcases hwriter with hsame | hother
      · rw [hsame]
        exact hpop
      · exact hother
    · obtain ⟨t, hslot, -, hsame⟩ := he.slots _ t' hne hslot'
      rw [hsame]
      exact hfile t hslot

theorem Elsewhere.setRecording {j : Nat} {rec : Recording} (hj : j ≠ k)
    (hnode : rec.node = (w.recording j).node)
    (hbusy : busy rec = true → busy (w.recording j) = true)
    (hwriter : rec.writer = (w.recording j).writer ∨ rec.writer ≠ some (.pop (some k))) :
    Elsewhere n k w (w.setRecording j rec) where
  recording := WriteComponent.recording_setRecording_of_ne _ _ _ hj.symm
  slot := rfl
  slots := fun _ t' _ hslot => ⟨t', hslot, rfl, rfl⟩
  writers := by
    intro i _ hi
    rcases eq_or_ne i j with rfl | hne
    · rw [WriteComponent.recording_setRecording] at hi ⊢
      exact ⟨hbusy hi, hnode, hwriter⟩
    · rw [WriteComponent.recording_setRecording_of_ne _ _ _ hne] at hi ⊢
      exact ⟨hi, rfl, .inl rfl⟩

theorem Elsewhere.disable (hm : m ≠ n) (hslot : w.fileT m = some t) :
    Elsewhere n k w (w.setFileT m (some { t with enable := 0 })) where
  recording := rfl
  slot := WriteComponent.fileT_setFileT_of_ne _ _ _ hm.symm
  slots := by
    intro i t' _ hslot'
    rcases eq_or_ne i m with rfl | hne
    · rw [WriteComponent.fileT_setFileT] at hslot'
      obtain rfl := Option.some.inj hslot'
      exact ⟨t, hslot, rfl, rfl⟩
    · rw [WriteComponent.fileT_setFileT_of_ne _ _ _ hne] at hslot'
      exact ⟨t', hslot', rfl, rfl⟩
  writers := fun _ _ hbusy => ⟨hbusy, rfl, .inl rfl⟩

theorem Elsewhere.trans (h : Elsewhere n k w w') (h' : Elsewhere n k w' w'') :
    Elsewhere n k w w'' where
  recording := h'.recording.trans h.recording
  slot := h'.slot.trans h.slot
  slots := by
    intro m t'' hm hslot''
    obtain ⟨t', hslot', hqueue', hfile'⟩ := h'.slots m t'' hm hslot''
    obtain ⟨t, hslot, hqueue, hfile⟩ := h.slots m t' hm hslot'
    exact ⟨t, hslot, hqueue'.trans hqueue, hfile'.trans hfile⟩
  writers := by
    intro j hj hbusy''
    obtain ⟨hbusy', hnode', hwriter'⟩ := h'.writers j hj hbusy''
    obtain ⟨hbusy, hnode, hwriter⟩ := h.writers j hj hbusy'
    refine ⟨hbusy, hnode'.trans hnode, ?_⟩
    rcases hwriter' with hsame | hother
    · rw [hsame]
      exact hwriter
    · exact .inr hother

theorem elsewhere_tinyQueuePush {queue : Option Nat} {item : QueueItem} {memory : Bool}
    (hqueue : queue ≠ some k) (hok : tinyQueuePush queue item memory w = .ok w') :
    Elsewhere n k w w' ∧ w'.fileT = w.fileT := by
  rcases tinyQueuePush_ok hok with ⟨-, rfl⟩ | ⟨-, q, items, rfl, -, rfl⟩
  · exact ⟨.refl _ _ _, rfl⟩
  · exact ⟨.setRecording (fun heq => hqueue (congrArg some heq)) rfl (fun hbusy => hbusy)
      (.inl rfl), rfl⟩

theorem elsewhere_informStop (h : Alone n k w) (hm : m ≠ n) (hok : informStop m r w = .ok w') :
    Elsewhere n k w w' := by
  obtain ⟨t, w₁, hslot, hpush, rfl⟩ := informStop_pushes hok
  obtain ⟨helse, hfileT⟩ := elsewhere_tinyQueuePush (n := n) (h.queues m t hm hslot) hpush
  exact helse.trans (.disable hm (by rw [hfileT, hslot]))

theorem elsewhere_queueRecord (h : Alone n k w) (hm : m ≠ n) (hslot : w.fileT m = some t)
    {buf : List UInt8} {memory : Bool} (hok : queueRecord t buf memory w = .ok w') :
    Elsewhere n k w w' := by
  rcases queueRecord_ok hok with ⟨-, rfl⟩ | ⟨-, q, items, hq, -, rfl⟩
  · exact .refl n k w'
  · have hqk : q ≠ k := by
      rintro rfl
      exact h.queues m t hm hslot hq
    exact .setRecording hqk rfl (fun hbusy => hbusy) (.inl rfl)

theorem elsewhere_sent {record : Except Fault (List UInt8)} (h : Alone n k w) {nodes : List Nat}
    (hn : n ∉ nodes) (hsent : Sent record r nodes w w') : Elsewhere n k w w' := by
  induction hsent with
  | done | ended => exact .refl n k _
  | skipped _ _ ih => exact ih h (List.not_mem_of_not_mem_cons hn)
  | queued hslot _ _ hqueue _ ih =>
      have hm := List.ne_of_not_mem_cons hn
      have hfirst := elsewhere_queueRecord h hm.symm hslot hqueue
      exact hfirst.trans (ih (h.elsewhere hfirst) (List.not_mem_of_not_mem_cons hn))
  | stopped _ _ hstop _ ih =>
      have hm := List.ne_of_not_mem_cons hn
      have hfirst := elsewhere_informStop h hm.symm hstop
      exact hfirst.trans (ih (h.elsewhere hfirst) (List.not_mem_of_not_mem_cons hn))

theorem elsewhere_goTo {j : Nat} {st : WriterState} (hj : j ≠ k)
    (hbusy : busy (w.recording j) = true) (hst : st ≠ .pop (some k)) :
    Elsewhere n k w (goTo j st w) :=
  .setRecording hj rfl (fun _ => hbusy) (.inr (by simpa using hst))

theorem elsewhere_writeThread {freed : List Nat} {j : Nat} (h : Alone n k w) (hj : j ≠ k)
    (hok : writeThread freed j w = .ok w') : Elsewhere n k w w' := by
  have hkeeps : ∀ (q : Nat) (rec : Recording), q ≠ k → rec.node = (w.recording q).node →
      rec.writer = (w.recording q).writer → busy (w.recording j) = true →
      ∀ st : WriterState, st ≠ .pop (some k) →
      Elsewhere n k w (goTo j st (w.setRecording q rec)) := by
    intro q rec hq hnode hwriter hbusy st hst
    have hsame : busy rec = busy (w.recording q) := busy_congr hwriter
    have hset : Elsewhere n k w (w.setRecording q rec) :=
      .setRecording hq hnode (fun h => hsame ▸ h) (.inl hwriter)
    exact hset.trans (elsewhere_goTo hj (by rwa [apply_setRecording busy hsame]) hst)
  cases threadStep_of_writeThread hok with
  | idle | waits => exact .refl n k w
  | fetched t hwriter hslot =>
      have hbusy : busy (w.recording j) = true := by simp [busy, hwriter]
      refine elsewhere_goTo hj hbusy fun hpop => ?_
      exact h.queues _ t (h.writers j hj hbusy).1 hslot (WriterState.pop.inj hpop)
  | popped q item items hwriter hitems =>
      have hbusy : busy (w.recording j) = true := by simp [busy, hwriter]
      refine hkeeps q { w.recording q with queue := some items } ?_ rfl rfl hbusy _ ?_
      · rintro rfl
        exact (h.writers j hj hbusy).2.1 hwriter
      · split <;> simp
  | wrote buf t f hwriter hslot hfile =>
      have hbusy : busy (w.recording j) = true := by simp [busy, hwriter]
      refine hkeeps f { w.recording f with written := (w.recording f).written ++ [buf] } ?_ rfl rfl
        hbusy _ (by simp)
      rintro rfl
      exact (h.writers j hj hbusy).2.2 t hslot hfile
  | posted hwriter =>
      have hbusy : busy (w.recording j) = true := by simp [busy, hwriter]
      have hpost : Elsewhere n k w { w with
          posted := w.posted ++ [{ node := (w.recording j).node, writer := j }] } :=
        ⟨rfl, rfl, fun _ t' _ hslot => ⟨t', hslot, rfl, rfl⟩, fun _ _ hb => ⟨hb, rfl, .inl rfl⟩⟩
      exact hpost.trans (elsewhere_goTo hj hbusy (by simp))

end Elsewhere

section Own

theorem Alone.change (h : Alone n k w) {u : WriteFile} (hslot' : w'.fileT n = some u)
    (hqueue : u.queue = some k) (henable : u.enable = 0 ∨ u.enable = 1)
    (hcur : Current n k u (w'.recording k)) (hslots : ∀ m, m ≠ n → w'.fileT m = w.fileT m)
    (hrecordings : ∀ j, j ≠ k → w'.recording j = w.recording j) : Alone n k w' where
  slot := ⟨u, hslot', hqueue, henable, hcur⟩
  queues := by
    intro m t hm hslot
    rw [hslots m hm] at hslot
    exact h.queues m t hm hslot
  writers := by
    intro j hj hbusy
    rw [hrecordings j hj] at hbusy ⊢
    obtain ⟨hne, hpop, hfile⟩ := h.writers j hj hbusy
    refine ⟨hne, hpop, fun t hslot => ?_⟩
    rw [hslots _ hne] at hslot
    exact hfile t hslot

theorem Alone.setRecording (h : Alone n k w) {rec : Recording}
    (hcur : ∀ t, w.fileT n = some t → Current n k t (w.recording k) → Current n k t rec) :
    Alone n k (w.setRecording k rec) := by
  obtain ⟨t, hslot, hqueue, henable, hold⟩ := h.slot
  have hcur' : Current n k t ((w.setRecording k rec).recording k) := by
    rw [WriteComponent.recording_setRecording]
    exact hcur t hslot hold
  exact h.change hslot hqueue henable hcur' (fun _ _ => rfl) fun j hj =>
    WriteComponent.recording_setRecording_of_ne _ _ _ hj

theorem alone_informStop (h : Alone n k w) (hok : informStop m r w = .ok w') :
    Alone n k w' ∧ (w'.recording k).queued = (w.recording k).queued := by
  by_cases hm : m = n
  · subst hm
    obtain ⟨t, hslot, hqueue, -, hcur⟩ := h.slot
    obtain ⟨t', hslot', hstopped⟩ := informStop_ok hok
    obtain rfl := Option.some.inj (hslot.symm.trans hslot')
    have hothers : ∀ (w₁ : WriteComponent) (u : Option WriteFile) (i : Nat), i ≠ m →
        (w₁.setFileT m u).fileT i = w₁.fileT i :=
      fun _ _ _ hi => WriteComponent.fileT_setFileT_of_ne _ _ _ hi
    rcases hstopped with ⟨-, rfl⟩ | ⟨-, q, items, hq, hitems, rfl⟩
    · exact ⟨h.change (WriteComponent.fileT_setFileT _ _ _) hqueue (.inl rfl) hcur.disable
        (hothers _ _) fun _ _ => rfl, rfl⟩
    · obtain rfl := Option.some.inj (hqueue.symm.trans hq)
      refine ⟨h.change (WriteComponent.fileT_setFileT _ _ _) hqueue (.inl rfl) ?_ (hothers _ _)
        fun j hj => WriteComponent.recording_setRecording_of_ne _ _ _ hj, by simp⟩
      rw [WriteComponent.recording_setFileT, WriteComponent.recording_setRecording]
      exact hcur.stop hitems
  · have helse := elsewhere_informStop h hm hok
    exact ⟨h.elsewhere helse, by rw [helse.recording]⟩

/-- What a send does to recording `k`: nothing, or its record is queued. -/
inductive Received (record : Except Fault (List UInt8)) (r r' : Recording) : Prop where
  | nothing (hsame : r' = r)
  | one (buf : List UInt8) (items : List QueueItem) (hrecord : record = .ok buf)
      (hitems : r.queue = some items)
      (hpush : r' = { r with queue := some (items ++ [{ buf }]), queued := r.queued ++ [buf] })

theorem alone_queueRecord {record : Except Fault (List UInt8)} (h : Alone n k w)
    (hslot : w.fileT n = some t) (henable : t.enable = 1) {buf : List UInt8}
    (hrecord : record = .ok buf) (hbuf : buf ≠ []) {memory : Bool}
    (hok : queueRecord t buf memory w = .ok w') :
    Alone n k w' ∧ Received record (w.recording k) (w'.recording k) := by
  obtain ⟨t₀, hslot₀, hqueue, -⟩ := h.slot
  obtain rfl := Option.some.inj (hslot.symm.trans hslot₀)
  rcases queueRecord_ok hok with ⟨-, rfl⟩ | ⟨-, q, items, hq, hitems, rfl⟩
  · exact ⟨h, .nothing rfl⟩
  · obtain rfl := Option.some.inj (hqueue.symm.trans hq)
    refine ⟨h.setRecording fun t₁ hslot₁ hcur => ?_, ?_⟩
    · obtain rfl := Option.some.inj (hslot.symm.trans hslot₁)
      exact hcur.push hitems henable hbuf
    · rw [WriteComponent.recording_setRecording]
      exact .one buf items hrecord hitems rfl

theorem alone_sendToSave {record : Except Fault (List UInt8)} {knowsTwo : Bool}
    (hrecord : ∀ buf, record = .ok buf → buf ≠ []) {nodes : List Nat} (hnodup : nodes.Nodup)
    (h : Alone n k w) (hok : sendToSave record knowsTwo r nodes w = .ok w') :
    Alone n k w' ∧ Received record (w.recording k) (w'.recording k) := by
  replace hok := sent_of_sendToSave hok
  induction hok with
  | done | ended => exact ⟨h, .nothing rfl⟩
  | skipped _ _ ih => exact ih (List.nodup_cons.mp hnodup).2 h
  | @queued m _ _ _ _ _ buf hslot henable hbuf hqueue hrest ih =>
      obtain ⟨hm, hnodes⟩ := List.nodup_cons.mp hnodup
      rcases eq_or_ne m n with rfl | hne
      · obtain ⟨h₁, hreceived⟩ := alone_queueRecord h hslot henable hbuf (hrecord buf hbuf) hqueue
        have helse := elsewhere_sent h₁ hm hrest
        rw [helse.recording]
        exact ⟨h₁.elsewhere helse, hreceived⟩
      · have helse := elsewhere_queueRecord h hne hslot hqueue
        rw [← helse.recording]
        exact ih hnodes (h.elsewhere helse)
  | @stopped m _ _ _ _ _ hslot htwo hstop _ ih =>
      have hne : m ≠ n := by
        rintro rfl
        obtain ⟨t, hslot', -, henable, -⟩ := h.slot
        obtain rfl := Option.some.inj (hslot.symm.trans hslot')
        simp [htwo] at henable
      have helse := elsewhere_informStop h hne hstop
      rw [← helse.recording]
      exact ih (List.nodup_cons.mp hnodup).2 (h.elsewhere helse)

theorem alone_writeThread {freed : List Nat} (h : Alone n k w)
    (hok : writeThread freed k w = .ok w') :
    Alone n k w' ∧ (w'.recording k).queued = (w.recording k).queued := by
  obtain ⟨t, hslot, hqueue, -, hcur⟩ := h.slot
  have hown : ∀ {rec : Recording}, Current n k t rec → Alone n k (w.setRecording k rec) := by
    intro rec hrec
    refine h.setRecording fun t₁ hslot₁ _ => ?_
    obtain rfl := Option.some.inj (hslot.symm.trans hslot₁)
    exact hrec
  cases threadStep_of_writeThread hok with
  | idle | waits => exact ⟨h, rfl⟩
  | fetched t₁ hwriter hslot₁ =>
      rw [hcur.node] at hslot₁
      obtain rfl := Option.some.inj (hslot.symm.trans hslot₁)
      refine ⟨hown (hcur.move ?_ ?_ ?_), by simp [goTo]⟩
      · intro q hpop
        exact (WriterState.pop.inj hpop).symm.trans hqueue
      · simp [hwriter, heldBy]
      · simp [hwriter, hasStopped]
  | popped q item items hwriter hitems =>
      obtain rfl := Option.some.inj (hcur.pops _ hwriter)
      simp only [goTo, WriteComponent.recording_setRecording,
        WriteComponent.setRecording_setRecording, and_true]
      exact hown (hcur.take hitems hwriter)
  | wrote buf t₁ f hwriter hslot₁ hfile =>
      rw [hcur.node] at hslot₁
      obtain rfl := Option.some.inj (hslot.symm.trans hslot₁)
      obtain rfl := Option.some.inj (hcur.file.symm.trans hfile)
      simp only [goTo, WriteComponent.recording_setRecording,
        WriteComponent.setRecording_setRecording, and_true]
      exact hown (hcur.put hwriter)
  | posted hwriter =>
      have hexited : Current n k t { w.recording k with writer := some .exited } := by
        refine hcur.move (by simp) ?_ ?_
        · simp [hwriter, heldBy]
        · simp [hwriter, hasStopped]
      have hpost := hown hexited
      exact ⟨⟨hpost.slot, hpost.queues, hpost.writers⟩, by simp [goTo]⟩

end Own

theorem rssiRecord_ok {msg : RssiPriv} {buf : List UInt8} (h : rssiRecord msg = .ok buf) :
    buf = int32Bytes msg.tvSec ++ int32Bytes msg.tvUsec ++ int32Bytes msg.rssiBufLen ++
      dataOf msg := by
  unfold rssiRecord at h
  split at h
  · exact (Except.ok.inj h).symm
  · cases h

/-- What is queued for recording `k`: the record of each message, in order. -/
abbrev Records (msgs : List RssiPriv) (bufs : List (List UInt8)) : Prop :=
  List.Forall₂ (fun msg buf => rssiRecord msg = .ok buf) msgs bufs

/-- The node keeps its queue and its thread, and its queue gets the record
of the message that `queuedBy` finds. -/
theorem alone_perform {g g' : GBrokerPara} {c : SaveCall}
    (hnodup : (g.rssiUserNodeHead.map UserNode.addr).Nodup) (h : Alone n k g.save)
    (hstep : Calls g c g') :
    g'.rssiUserNodeHead = g.rssiUserNodeHead ∧ Alone n k g'.save ∧
      ∃ bufs, (g'.save.recording k).queued = (g.save.recording k).queued ++ bufs ∧
        Records (queuedBy k ⟨g, c, g'⟩).toList bufs := by
  cases c with
  | sendRssiToSave msg r =>
      obtain ⟨save, hsend, hg'⟩ := bind_eq_ok.mp hstep
      obtain rfl := Except.ok.inj hg'
      obtain ⟨halone, hreceived⟩ := alone_sendToSave rssiRecord_ne_nil hnodup h hsend
      refine ⟨rfl, halone, ?_⟩
      cases hreceived with
      | nothing hsame =>
          refine ⟨[], by simp [hsame], ?_⟩
          have hnone : queuedBy k ⟨g, .sendRssiToSave msg r, { g with save }⟩ = none := by
            simp [queuedBy, hsame]
          rw [hnone]
          exact .nil
      | one buf items hbuf hitems hpush =>
          refine ⟨[buf], by rw [hpush], ?_⟩
          have hsome : queuedBy k ⟨g, .sendRssiToSave msg r, { g with save }⟩ = some msg := by
            simp [queuedBy, hpush, hitems]
          rw [hsome]
          exact .cons hbuf .nil
  | informStopRssiWriteThread connfd r =>
      have hstop : informStopRssiWriteThread connfd r g = .ok g' := hstep
      unfold informStopRssiWriteThread at hstop
      split at hstop
      · obtain rfl := Except.ok.inj hstop
        exact ⟨rfl, h, [], by simp, .nil⟩
      · obtain ⟨save, hinform, hg'⟩ := bind_eq_ok.mp hstop
        obtain rfl := Except.ok.inj hg'
        obtain ⟨halone, hqueued⟩ := alone_informStop h hinform
        exact ⟨rfl, halone, [], by simp [hqueued], .nil⟩
  | rssiWriteThread j =>
      obtain ⟨save, hwrite, hg'⟩ := bind_eq_ok.mp hstep
      obtain rfl := Except.ok.inj hg'
      rcases eq_or_ne j k with rfl | hj
      · obtain ⟨halone, hqueued⟩ := alone_writeThread h hwrite
        exact ⟨rfl, halone, [], by simp [hqueued], .nil⟩
      · have helse := elsewhere_writeThread h hj hwrite
        exact ⟨rfl, h.elsewhere helse, [], by simp [helse.recording], .nil⟩

/-- Run, by induction on it: what is queued for recording `k` are the records of
the messages, in order. -/
theorem records_of_run {g g' : GBrokerPara} {trs : List (Transition GBrokerPara SaveCall)}
    (hnodup : (g.rssiUserNodeHead.map UserNode.addr).Nodup) (h : Alone n k g.save)
    (hrun : Run Calls g trs g') :
    Alone n k g'.save ∧
      ∃ bufs, (g'.save.recording k).queued = (g.save.recording k).queued ++ bufs ∧
        Records (messages k trs) bufs := by
  induction hrun with
  | nil s => exact ⟨h, [], by simp, .nil⟩
  | @cons s s₁ s' c trs hstep _ ih =>
      obtain ⟨hnodes, h₁, first, hfirst, hrecords⟩ := alone_perform hnodup h hstep
      obtain ⟨h', rest, hrest, hrecords'⟩ := ih (hnodes ▸ hnodup) h₁
      refine ⟨h', first ++ rest, by rw [hrest, hfirst, List.append_assoc], ?_⟩
      have hmessages : messages k (⟨s, c, s₁⟩ :: trs) =
          (queuedBy k ⟨s, c, s₁⟩).toList ++ messages k trs := by
        unfold messages
        cases hqueued : queuedBy k ⟨s, c, s₁⟩ <;> simp [hqueued]
      rw [hmessages]
      exact List.rel_append hrecords hrecords'

theorem sample_of_record {msg : RssiPriv} {buf : List UInt8} (hfits : Fits msg)
    (hrecord : rssiRecord msg = .ok buf) :
    ∃ s : Sample, s.encode = buf ∧ s.fields = fields msg := by
  have hlength : ((dataOf msg).length : Int) = msg.rssiBufLen := by
    have hnonneg := hfits.nonneg
    simp only [dataOf, List.length_map, List.length_range]
    omega
  have hint : InInt32 (dataOf msg).length := by
    have hle := hfits.le
    unfold InInt32
    omega
  refine ⟨⟨msg.tvSec, msg.tvUsec, dataOf msg, hfits.sec, hfits.usec, hint⟩, ?_, rfl⟩
  rw [rssiRecord_ok hrecord, Sample.encode]
  simp only [hlength]

theorem samples_of_records {msgs : List RssiPriv} {bufs : List (List UInt8)}
    (hfits : ∀ msg ∈ msgs, Fits msg) (h : Records msgs bufs) :
    ∃ samples : List Sample, samples.map Sample.encode = bufs ∧
      samples.map Sample.fields = msgs.map fields := by
  induction h with
  | nil => exact ⟨[], rfl, rfl⟩
  | cons hrecord _ ih =>
      obtain ⟨hfirst, hrest⟩ := List.forall_mem_cons.mp hfits
      obtain ⟨s, hs, hfields⟩ := sample_of_record hfirst hrecord
      obtain ⟨samples, hsamples, hall⟩ := ih hrest
      exact ⟨s :: samples, by simp [hs, hsamples], by simp [hfields, hall]⟩

/-- Whatever the order of the calls, the file that a write thread leaves behind
reads back as the messages queued for it, in order, with nothing left over. -/
theorem saved_file_decodes {g g' : GBrokerPara} {trs : List (Transition GBrokerPara SaveCall)}
    (hnodup : (g.rssiUserNodeHead.map UserNode.addr).Nodup) (h : Alone n k g.save)
    (hstart : (g.save.recording k).queued = []) (hrun : Run Calls g trs g')
    (hfits : ∀ msg ∈ messages k trs, Fits msg)
    (hexited : (g'.save.recording k).writer = some .exited) :
    ((sampleDecoder.drain (g'.save.recording k).written.flatten).1.map Sample.fields =
        (messages k trs).map fields) ∧
      (sampleDecoder.drain (g'.save.recording k).written.flatten).2 = [] := by
  obtain ⟨h', bufs, hqueued, hrecords⟩ := records_of_run hnodup h hrun
  obtain ⟨t, -, -, -, hcur⟩ := h'.slot
  have hwritten : (g'.save.recording k).written = (g'.save.recording k).queued :=
    hcur.accounted.written_eq_queued (by simp [drain, hexited, hasStopped])
  obtain ⟨samples, hsamples, hfields⟩ := samples_of_records hfits hrecords
  rw [hwritten, hqueued, hstart, List.nil_append, ← hsamples, drain_records]
  exact ⟨hfields, rfl⟩

def callOf (g : GBrokerPara) (c : SaveCall) : Option GBrokerPara := (perform g c).toOption

theorem calls_of_callOf (g : GBrokerPara) (c : SaveCall) (g' : GBrokerPara)
    (h : callOf g c = some g') : Calls g c g' := by
  unfold callOf at h
  unfold Calls
  cases hperform : perform g c with
  | error fault => simp [hperform, Except.toOption] at h
  | ok g₁ => simpa [hperform, Except.toOption] using h

/-- Connection 7 starts a recording. -/
def startRecording : List Label :=
  [⟨.acceptNewUser 7, .success⟩, ⟨.inquiryRssi 7, .success⟩,
    ⟨.controlRssi 7 (saveRequest 43 1 "a"), .success⟩]

def sample : RssiPriv :=
  { tvSec := 1, tvUsec := 2, rssiBufLen := 3, rssiBuf := fun i => UInt8.ofNat i }

def emptySample : RssiPriv :=
  { tvSec := -1, tvUsec := 5, rssiBufLen := 0, rssiBuf := fun _ => 0 }

/-- Two samples, and the stop; the thread works in between. -/
def recordSamples : List SaveCall :=
  [.sendRssiToSave sample Replies.success.save, .rssiWriteThread 0, .rssiWriteThread 0,
    .sendRssiToSave emptySample Replies.success.save,
    .informStopRssiWriteThread 7 Replies.success.save, .rssiWriteThread 0, .rssiWriteThread 0,
    .rssiWriteThread 0, .rssiWriteThread 0, .rssiWriteThread 0, .rssiWriteThread 0,
    .rssiWriteThread 0]

theorem saved_file_decodes_samples :
    ∃ trs s trs' g', replay surviveFresh (startState ⟨"dev", "1"⟩ ⟨"dev", "0"⟩) startRecording =
        some (trs, s) ∧
      replay callOf s.broker recordSamples = some (trs', g') ∧
      (sampleDecoder.drain (g'.save.recording 0).written.flatten).1.map Sample.fields =
        [(1, 2, [0, 1, 2]), (-1, 5, [])] ∧
      (sampleDecoder.drain (g'.save.recording 0).written.flatten).2 = [] := by
  obtain ⟨trs, s, trs', g', t, hs, hg', hslot, hqueue, henable, hstart, hmessages, hexited⟩ :
      ∃ trs s trs' g' t, replay surviveFresh (startState ⟨"dev", "1"⟩ ⟨"dev", "0"⟩)
          startRecording = some (trs, s) ∧
        replay callOf s.broker recordSamples = some (trs', g') ∧
        s.broker.save.fileT 0 = some t ∧ t.queue = some 0 ∧ t.enable = 1 ∧
        (s.broker.save.recording 0).queued = [] ∧
        messages 0 trs' = [sample, emptySample] ∧
        (g'.save.recording 0).writer = some .exited :=
    ⟨_, _, _, _, _, rfl, rfl, rfl, rfl, rfl, rfl, rfl, rfl⟩
  refine ⟨trs, s, trs', g', hs, hg', ?_⟩
  have hrun : Run (fun a l b => StartsFresh a l ∧ Step a l b) _ trs s :=
    run_of_replay step_of_surviveFresh hs
  have hrssi : RssiIsolated s.broker :=
    (separate_reached (startState_started _ _) (hrun.mono fun _ _ _ h => h.2)
      fun tr htr => (hrun.step_of_mem htr).1).rssi
  have halone : Alone 0 0 s.broker.save :=
    alone_of_isolated hrssi.save hslot hqueue (.inr henable)
  have hcalls : Run Calls s.broker trs' g' := run_of_replay calls_of_callOf hg'
  have hfits : ∀ msg ∈ messages 0 trs', Fits msg := by
    rw [hmessages]
    simp only [List.forall_mem_cons]
    exact ⟨⟨by decide, by decide, by decide, by decide⟩,
      ⟨by decide, by decide, by decide, by decide⟩, by simp⟩
  have hdecodes := saved_file_decodes hrssi.linked.addrs halone hstart hcalls hfits hexited
  rw [hmessages] at hdecodes
  exact hdecodes

end GwWeb.SavedFile
