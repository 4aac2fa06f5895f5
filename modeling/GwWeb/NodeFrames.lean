import GwWeb.WriteThreads

/-!
What the save operations on one node leave alone of another.
-/

namespace GwWeb.NodeFrames

open GwWeb.WebCommon
open GwWeb.WriteSlots
open GwWeb.WriteThreads

variable {w w' w'' : WriteComponent} {allocated a n k : Nat} {t : WriteFile} {freed : List Nat}

/-- Node `a` keeps its slot, its recordings and its attendants, and gets no new
write thread. -/
structure Untouched (a : Nat) (w w' : WriteComponent) : Prop where
  slot : w'.fileT a = w.fileT a
  recording : ∀ k, k < w.starts → (w.recording k).node = a → w'.recording k = w.recording k
  threads : ∀ k, (w'.recording k).node = a → busy (w'.recording k) = true →
    k < w.starts ∧ (w.recording k).node = a
  attendants : attendants w' a = attendants w a

theorem Untouched.refl (h : Slotted w allocated) (a : Nat) : Untouched a w w :=
  ⟨rfl, fun _ _ _ => rfl, fun _ hnode hbusy => ⟨h.lt_starts hbusy, hnode⟩, rfl⟩

theorem Untouched.trans (h : Untouched a w w') (h' : Untouched a w' w'')
    (hle : w.starts ≤ w'.starts) : Untouched a w w'' where
  slot := h'.slot.trans h.slot
  recording := by
    intro k hk hnode
    have hsame := h.recording k hk hnode
    exact (h'.recording k (Nat.lt_of_lt_of_le hk hle) (hsame ▸ hnode)).trans hsame
  threads := by
    intro k hnode hbusy
    obtain ⟨hk, hnode'⟩ := h'.threads k hnode hbusy
    have hsame := h'.recording k hk hnode'
    exact h.threads k hnode' (hsame ▸ hbusy)
  attendants := h'.attendants.trans h.attendants

theorem Untouched.of_quiet (h : Slotted w allocated) (hquiet : Quiet w w')
    (hslot : w'.fileT a = w.fileT a)
    (hrecording : ∀ k, (w.recording k).node = a → w'.recording k = w.recording k) :
    Untouched a w w' where
  slot := hslot
  recording := fun k _ => hrecording k
  threads := by
    intro k hnode hbusy
    rw [hquiet.node] at hnode
    rw [hquiet.busy] at hbusy
    exact ⟨h.lt_starts hbusy, hnode⟩
  attendants := hquiet.attendants a

section Operations

theorem push_recording (h : Slotted w allocated) (hslot : w.fileT n = some t) {item : QueueItem}
    {memory : Bool} (hok : tinyQueuePush t.queue item memory w = .ok w')
    (hne : (w.recording k).node ≠ n) : w'.recording k = w.recording k := by
  rcases tinyQueuePush_ok hok with ⟨-, rfl⟩ | ⟨-, q, items, hqueue, -, rfl⟩
  · rfl
  · apply WriteComponent.recording_setRecording_of_ne
    rintro rfl
    exact hne (h.queue n t k hslot hqueue).2.1

theorem untouched_informStop (h : Slotted w allocated) {reply : SaveReplies} (hne : n ≠ a)
    (hok : informStop n reply w = .ok w') : Untouched a w w' := by
  obtain ⟨hquiet, -, -, -, hothers⟩ := quiet_informStop hok
  refine .of_quiet h hquiet (hothers a hne.symm) fun k hnode => ?_
  obtain ⟨t, w₁, hslot, hpush, rfl⟩ := informStop_pushes hok
  rw [WriteComponent.recording_setFileT]
  exact push_recording h hslot hpush (hnode ▸ hne.symm)

theorem untouched_queueRecord (h : Slotted w allocated) {buf : List UInt8} {memory : Bool}
    (hslot : w.fileT n = some t) (hne : n ≠ a) (hok : queueRecord t buf memory w = .ok w') :
    Untouched a w w' := by
  obtain ⟨hquiet, hsame⟩ := quiet_queueRecord hok
  refine .of_quiet h hquiet (congrFun hsame a) fun k hnode => ?_
  rcases queueRecord_ok hok with ⟨-, rfl⟩ | ⟨-, q, items, hqueue, -, rfl⟩
  · rfl
  · apply WriteComponent.recording_setRecording_of_ne
    rintro rfl
    exact hne ((h.queue n t k hslot hqueue).2.1.symm.trans hnode)

theorem untouched_sendToSave {record : Except Fault (List UInt8)} {knowsTwo : Bool}
    {reply : SaveReplies} (h : Slotted w allocated) {nodes : List Nat} (hne : a ∉ nodes)
    (hok : sendToSave record knowsTwo reply nodes w = .ok w') : Untouched a w w' := by
  replace hok := sent_of_sendToSave hok
  induction hok with
  | done | ended => exact .refl h a
  | skipped _ _ ih => exact ih h (List.not_mem_of_not_mem_cons hne)
  | queued hslot _ _ hqueue _ ih =>
      have hn := List.ne_of_not_mem_cons hne
      have hquiet := (quiet_queueRecord hqueue).1
      exact (untouched_queueRecord h hslot hn.symm hqueue).trans
        (ih (h.of_quiet hquiet) (List.not_mem_of_not_mem_cons hne))
        (Nat.le_of_eq hquiet.starts.symm)
  | stopped _ _ hstop _ ih =>
      have hn := List.ne_of_not_mem_cons hne
      have hquiet := (quiet_informStop hstop).1
      exact (untouched_informStop h hn.symm hstop).trans
        (ih (h.of_quiet hquiet) (List.not_mem_of_not_mem_cons hne))
        (Nat.le_of_eq hquiet.starts.symm)

theorem untouched_startSave (h : Slotted w allocated) (hslot : w.fileT n = some t)
    (henable : t.enable ≠ 1) (name : String) (reply : SaveReplies) (hne : n ≠ a) :
    Untouched a w (startSave n t name reply w).2 := by
  obtain ⟨-, hstarts, -⟩ := startSave_slotted h hslot henable name reply
  have htaken : ∀ r : Recording, r.node = n → ∀ u : Option WriteFile, ∀ j,
      ((({ w with starts := w.starts + 1 } : WriteComponent).setRecording w.starts r).setFileT n
          u).recording j = w.recording j ∨
        j = w.starts ∧ ((({ w with starts := w.starts + 1 } : WriteComponent).setRecording
          w.starts r).setFileT n u).recording j = r := by
    intro r _ u j
    rcases eq_or_ne j w.starts with rfl | hj
    · exact .inr ⟨rfl, WriteComponent.recording_setRecording _ _ _⟩
    · exact .inl (WriteComponent.recording_setRecording_of_ne _ _ _ hj)
  have hrecordings : ∀ j, (startSave n t name reply w).2.recording j = w.recording j ∨
      j = w.starts ∧ ((startSave n t name reply w).2.recording j).node = n := by
    intro j
    unfold startSave
    split
    · dsimp only
      split
      all_goals
        refine (htaken _ ?_ _ j).imp_right fun hnew => ⟨hnew.1, ?_⟩
        · rfl
        · rw [hnew.2]
    · exact .inl rfl
  refine ⟨hstarts.slots a hne.symm, fun k hk _ => ?_, fun k hnode hbusy => ?_,
    hstarts.attendants a hne.symm⟩
  · exact (hrecordings k).resolve_right fun hnew => Nat.ne_of_lt hk hnew.1
  · rcases hrecordings k with hold | ⟨-, hnew⟩
    · rw [hold] at hnode hbusy
      exact ⟨h.lt_starts hbusy, hnode⟩
    · exact absurd (hnew.symm.trans hnode) hne

theorem untouched_saveCommand (h : Slotted w allocated) {already ret : Int} {root : CJson}
    {reply : SaveReplies} (hne : n ≠ a) (hok : saveCommand already n root reply w = .ok (ret, w')) :
    Untouched a w w' := by
  obtain ⟨opCmd, -, hok⟩ := bind_eq_ok.mp hok
  have hsame : ∀ {x : Int}, Except.ok (x, w) = (Except.ok (ret, w') : Except Fault _) →
      Untouched a w w' := by
    intro x heq
    obtain ⟨-, rfl⟩ := Prod.mk.inj (Except.ok.inj heq)
    exact .refl h a
  split at hok
  · cases hok
  · rename_i t hslot
    split at hok
    · split at hok
      · exact hsame hok
      · obtain ⟨w₁, hstop, hok⟩ := bind_eq_ok.mp hok
        obtain ⟨-, rfl⟩ := Prod.mk.inj (Except.ok.inj hok)
        exact untouched_informStop h hne hstop
    · split at hok
      · split at hok
        · exact hsame hok
        · rename_i henable
          obtain ⟨name, -, hok⟩ := bind_eq_ok.mp hok
          have hstart := untouched_startSave h hslot henable name reply hne
          rwa [Except.ok.inj hok] at hstart
      · exact hsame hok

end Operations

section Threads

/-- What a step of write thread `k` changes: its own recording, and what the
recordings of its node have queued and written. -/
structure Steps (k : Nat) (w w' : WriteComponent) : Prop where
  node : ∀ j, (w'.recording j).node = (w.recording j).node
  writer : ∀ j, j ≠ k → (w'.recording j).writer = (w.recording j).writer
  others : ∀ j, (w.recording j).node ≠ (w.recording k).node → w'.recording j = w.recording j

theorem Steps.refl (k : Nat) (w : WriteComponent) : Steps k w w :=
  ⟨fun _ => rfl, fun _ _ => rfl, fun _ _ => rfl⟩

theorem Steps.goTo (h : Steps k w w') (st : WriterState) : Steps k w (goTo k st w') where
  node := fun j => (node_goTo j).trans (h.node j)
  writer := by
    intro j hj
    rw [recording_goTo_of_ne hj]
    exact h.writer j hj
  others := by
    intro j hj
    rw [recording_goTo_of_ne]
    · exact h.others j hj
    · rintro rfl
      exact hj rfl

theorem Steps.setRecording {q : Nat} {r : Recording}
    (hq : (w.recording q).node = (w.recording k).node) (hnode : r.node = (w.recording q).node)
    (hwriter : r.writer = (w.recording q).writer) : Steps k w (w.setRecording q r) where
  node := apply_setRecording Recording.node hnode
  writer := fun j _ => apply_setRecording Recording.writer hwriter j
  others := by
    intro j hj
    apply WriteComponent.recording_setRecording_of_ne
    rintro rfl
    exact hj hq

theorem steps_writeThread (h : Slotted w allocated) (hok : writeThread freed k w = .ok w') :
    Steps k w w' := by
  cases threadStep_of_writeThread hok with
  | idle | waits => exact .refl k w
  | fetched t hwriter hslot => exact (Steps.refl k w).goTo _
  | popped q item items hwriter hitems =>
      apply Steps.goTo
      exact .setRecording (h.reads k q hwriter).2 rfl rfl
  | wrote buf t f hwriter hslot hfile =>
      apply Steps.goTo
      exact .setRecording (h.file _ t f hslot hfile).2.1 rfl rfl
  | posted hwriter =>
      apply Steps.goTo
      exact ⟨fun _ => rfl, fun _ _ => rfl, fun _ _ => rfl⟩

theorem untouched_writeThread (h : Slotted w allocated) (hne : (w.recording k).node ≠ a)
    (hok : writeThread freed k w = .ok w') : Untouched a w w' := by
  obtain ⟨-, hslots, hattendants⟩ := writeThread_slotted h hok
  have hsteps := steps_writeThread h hok
  have hsame : ∀ j, (w.recording j).node = a → w'.recording j = w.recording j :=
    fun j hj => hsteps.others j (hj ▸ hne.symm)
  refine ⟨congrFun hslots a, fun j _ => hsame j, fun j hnode hbusy => ?_, hattendants a⟩
  rw [hsteps.node] at hnode
  rw [hsame j hnode] at hbusy
  exact ⟨h.lt_starts hbusy, hnode⟩

theorem untouched_takesAway (h : Slotted w allocated) {m : ClearStatus} {ms : List ClearStatus}
    (hposted : w.posted = m :: ms) (hne : m.node ≠ a)
    (htakes : TakesAway m.node { w with posted := ms } w') : Untouched a w w' := by
  have hsame : ∀ j, (w.recording j).node = a → w'.recording j = w.recording j :=
    fun j hj => htakes.others j (hj ▸ hne.symm)
  refine ⟨?_, fun j _ => hsame j, fun j hnode hbusy => ?_, ?_⟩
  · rw [htakes.fileT, Function.update_of_ne hne.symm]
  · rw [htakes.node] at hnode
    rw [hsame j hnode] at hbusy
    exact ⟨h.lt_starts hbusy, hnode⟩
  · rw [htakes.attendants a]
    simp [attendants, hposted, hne]

end Threads

section Ending

/-- Write thread `k` is behind its loop, or pops from the queue of its node, where
an item of length 0 waits. -/
def ToldToEnd (w : WriteComponent) (k : Nat) : Prop :=
  (w.recording k).writer = some .post ∨
    ∃ t q items, w.fileT (w.recording k).node = some t ∧ t.queue = some q ∧
      (w.recording q).queue = some items ∧ (∃ item ∈ items, item.buf.length = 0) ∧
      ∀ x, (w.recording k).writer = some (.pop x) → x = some q

/-- Node `a` has one write thread that was told to end, or one message, and is
ready for the message. -/
structure Attended (a : Nat) (w : WriteComponent) : Prop where
  one : attendants w a = 1
  slot : ∃ t, w.fileT a = some t ∧ t.file.isSome = true ∧ t.queue.isSome = true
  told : ∀ k, (w.recording k).node = a → busy (w.recording k) = true → ToldToEnd w k

theorem Untouched.attended (h : Slotted w allocated) (hu : Untouched a w w')
    (ha : Attended a w) : Attended a w' where
  one := hu.attendants.trans ha.one
  slot := by
    rw [hu.slot]
    exact ha.slot
  told := by
    intro k hnode hbusy
    obtain ⟨hk, hnode'⟩ := hu.threads k hnode hbusy
    have hsame := hu.recording k hk hnode'
    rcases ha.told k hnode' (hsame ▸ hbusy) with
      hpost | ⟨t, q, items, hslot, hq, hitems, hend, hpop⟩
    · exact .inl (hsame ▸ hpost)
    · rw [hnode'] at hslot
      obtain ⟨hlt, hqnode, -⟩ := h.queue a t q hslot hq
      refine .inr ⟨t, q, items, ?_, hq, ?_, hend, hsame ▸ hpop⟩
      · rw [hnode, hu.slot, hslot]
      · rw [hu.recording q hlt hqnode, hitems]

theorem eq_of_attendants_eq_one (h : Slotted w allocated) (hone : attendants w a = 1) {j : Nat}
    (hj : (w.recording j).node = a) (hjbusy : busy (w.recording j) = true)
    (hk : (w.recording k).node = a) (hkbusy : busy (w.recording k) = true) : j = k := by
  have htends : ∀ i, (w.recording i).node = a → busy (w.recording i) = true →
      i ∈ (List.range w.starts).filter fun i => tends a (w.recording i) := by
    intro i hnode hbusy
    simp [tends, hnode, hbusy, h.lt_starts hbusy]
  have hlength : ((List.range w.starts).filter fun i => tends a (w.recording i)).length ≤ 1 := by
    rw [← List.countP_eq_length_filter]
    unfold attendants at hone
    omega
  obtain ⟨i, hi⟩ := List.length_eq_one_iff.mp (Nat.le_antisymm hlength
    (List.length_pos_of_mem (htends k hk hkbusy)))
  have hji := htends j hj hjbusy
  have hki := htends k hk hkbusy
  rw [hi, List.mem_singleton] at hji hki
  exact hji.trans hki.symm

theorem toldToEnd_writeThread (hok : writeThread freed k w = .ok w') (htold : ToldToEnd w k)
    (hbusy : busy (w'.recording k) = true) : ToldToEnd w' k := by
  cases threadStep_of_writeThread hok with
  | idle | waits => exact htold
  | fetched t hwriter hslot =>
      rcases htold with hpost | ⟨t', q, items, hslot', hq, hitems, hend, -⟩
      · rw [hwriter] at hpost
        cases hpost
      · obtain rfl := Option.some.inj (hslot.symm.trans hslot')
        refine .inr ⟨t, q, items, by rwa [node_goTo], hq, by rwa [queue_goTo], hend, ?_⟩
        intro x hx
        rw [writer_goTo] at hx
        rw [← WriterState.pop.inj (Option.some.inj hx), hq]
  | popped q item rest hwriter hcons =>
      rcases htold with hpost | ⟨t, q', items, hslot, hq, hitems, hend, hpop⟩
      · rw [hwriter] at hpost
        cases hpost
      obtain rfl := Option.some.inj (hpop _ hwriter)
      obtain rfl := Option.some.inj (hcons.symm.trans hitems)
      by_cases hlast : item.buf.length = 0
      · exact .inl (by rw [writer_goTo, if_pos hlast])
      · refine .inr ⟨t, q, rest, ?_, hq, by simp, ?_, fun x hx => ?_⟩
        · rw [node_goTo, apply_setRecording Recording.node (by rfl)]
          exact hslot
        · obtain ⟨e, he, hzero⟩ := hend
          rcases List.mem_cons.mp he with rfl | hrest
          · exact absurd hzero hlast
          · exact ⟨e, hrest, hzero⟩
        · rw [writer_goTo, if_neg hlast] at hx
          cases hx
  | wrote buf t' f hwriter hslot' hfile =>
      rcases htold with hpost | ⟨t, q, items, hslot, hq, hitems, hend, -⟩
      · rw [hwriter] at hpost
        cases hpost
      · refine .inr ⟨t, q, items, ?_, hq, ?_, hend, fun x hx => ?_⟩
        · rw [node_goTo, apply_setRecording Recording.node (by rfl)]
          exact hslot
        · rw [queue_goTo, apply_setRecording Recording.queue (by rfl), hitems]
        · rw [writer_goTo] at hx
          cases hx
  | posted hwriter => simp [busy] at hbusy

theorem Attended.writeThread (h : Slotted w allocated) (ha : Attended a w)
    (hok : writeThread freed k w = .ok w') : Attended a w' := by
  rcases eq_or_ne (w.recording k).node a with hk | hne
  · obtain ⟨-, hslots, hattendants⟩ := writeThread_slotted h hok
    have hsteps := steps_writeThread h hok
    refine ⟨(hattendants a).trans ha.one, by rw [hslots]; exact ha.slot, fun j hnode hbusy => ?_⟩
    rw [hsteps.node] at hnode
    by_cases hidle : busy (w.recording k) = true
    · have hjk : j = k := by
        by_contra hj
        have hsame : busy (w'.recording j) = busy (w.recording j) :=
          busy_congr (hsteps.writer j hj)
        exact hj (eq_of_attendants_eq_one h ha.one hnode (hsame ▸ hbusy) hk hidle)
      subst hjk
      exact toldToEnd_writeThread hok (ha.told j hnode hidle) hbusy
    · rw [writeThread_of_idle hidle hok] at hbusy ⊢
      exact ha.told j hnode hbusy
  · exact (untouched_writeThread h hne hok).attended h ha

/-- As `Attended`, where a terminator may be about to be pushed. -/
structure Ready (pushed : Prop) (a : Nat) (w : WriteComponent) : Prop where
  one : attendants w a = 1
  slot : ∃ t, w.fileT a = some t ∧ t.file.isSome = true ∧ t.queue.isSome = true
  told : ∀ k, (w.recording k).node = a → busy (w.recording k) = true → ToldToEnd w k ∨
    pushed ∧ ∀ x t, (w.recording k).writer = some (.pop x) → w.fileT a = some t → x = t.queue

theorem ready_iff_attended : Ready False a w ↔ Attended a w := by
  constructor
  · rintro ⟨hone, hslot, htold⟩
    exact ⟨hone, hslot, fun k hnode hbusy =>
      (htold k hnode hbusy).resolve_right fun hpushed => hpushed.1⟩
  · rintro ⟨hone, hslot, htold⟩
    exact ⟨hone, hslot, fun k hnode hbusy => .inl (htold k hnode hbusy)⟩

theorem toldToEnd_informStop {reply : SaveReplies} (hok : informStop a reply w = .ok w')
    (hnode : (w.recording k).node = a) :
    ToldToEnd w' k ↔ ToldToEnd w k ∨ reply.tinyQueuePush a = true ∧
      ∀ x t, (w.recording k).writer = some (.pop x) → w.fileT a = some t → x = t.queue := by
  obtain ⟨t, hslot, ⟨hmemory, rfl⟩ | ⟨hmemory, q, items, hq, hitems, rfl⟩⟩ := informStop_ok hok
  · simp only [ToldToEnd, WriteComponent.recording_setFileT, hnode,
      WriteComponent.fileT_setFileT, hslot, hmemory]
    simp
  · simp only [ToldToEnd, WriteComponent.recording_setFileT, WriteComponent.fileT_setFileT, hnode,
      apply_setRecording Recording.node (r := { w.recording q with
        queue := some (items ++ [.terminator]) }) rfl,
      apply_setRecording Recording.writer (r := { w.recording q with
        queue := some (items ++ [.terminator]) }) rfl, hslot, hmemory, true_and,
      Option.some.injEq]
    constructor
    · rintro (hpost | ⟨_, q', _, rfl, hq', -, -, hpop⟩)
      · exact .inl (.inl hpost)
      · refine .inr fun x t' hx ht => ?_
        rw [hpop x hx, ← ht, ← hq']
    · rintro ((hpost | ⟨t', q', _, rfl, hq', -, -, hpop⟩) | hpop)
      · exact .inl hpost
      · refine .inr ⟨_, q', items ++ [.terminator], rfl, hq', ?_, ?_, hpop⟩
        · rw [← Option.some.inj (hq.symm.trans hq'), WriteComponent.recording_setRecording]
        · exact ⟨.terminator, by simp, rfl⟩
      · refine .inr ⟨_, q, items ++ [.terminator], rfl, hq, ?_, ?_, fun x hx => ?_⟩
        · rw [WriteComponent.recording_setRecording]
        · exact ⟨.terminator, by simp, rfl⟩
        · rw [hpop x t hx rfl, hq]

/-- A node is attended behind `inform_stop_rssi_write_thread` exactly if it was
ready for it. -/
theorem attended_informStop_iff {reply : SaveReplies} (hok : informStop a reply w = .ok w') :
    Attended a w' ↔ Ready (reply.tinyQueuePush a = true) a w := by
  obtain ⟨hquiet, t, hslot, hslot', -⟩ := quiet_informStop hok
  have hslots : (∃ t, w'.fileT a = some t ∧ t.file.isSome = true ∧ t.queue.isSome = true) ↔
      ∃ t, w.fileT a = some t ∧ t.file.isSome = true ∧ t.queue.isSome = true := by
    rw [hslot, hslot']
    simp
  have htold : ∀ k, ((w'.recording k).node = a → busy (w'.recording k) = true → ToldToEnd w' k) ↔
      ((w.recording k).node = a → busy (w.recording k) = true → ToldToEnd w k ∨
        reply.tinyQueuePush a = true ∧ ∀ x t, (w.recording k).writer = some (.pop x) →
          w.fileT a = some t → x = t.queue) := by
    intro k
    rw [hquiet.node, hquiet.busy]
    exact forall_congr' fun hnode => imp_congr_right fun _ => toldToEnd_informStop hok hnode
  constructor
  · rintro ⟨hone, hready, hends⟩
    exact ⟨(hquiet.attendants a).symm.trans hone, hslots.mp hready, fun k => (htold k).mp (hends k)⟩
  · rintro ⟨hone, hready, hends⟩
    exact ⟨(hquiet.attendants a).trans hone, hslots.mpr hready, fun k => (htold k).mpr (hends k)⟩

end Ending

end GwWeb.NodeFrames
