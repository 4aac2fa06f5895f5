import GwWeb.WriteSlots

/-!
The steps of the write threads, and of the message that ends them, over the
slots.
-/

namespace GwWeb.WriteThreads

open GwWeb.WebCommon
open GwWeb.WriteSlots

variable {w w' : WriteComponent} {allocated n k : Nat} {t : WriteFile} {freed : List Nat}

theorem writeFileOf_ok {freed : List Nat} (hok : writeFileOf freed n w = .ok t) :
    n ∉ freed ∧ w.fileT n = some t := by
  unfold writeFileOf at hok
  split at hok
  · cases hok
  · rename_i hfreed
    split at hok
    · cases hok
    · rename_i t' hslot
      exact ⟨hfreed, hslot.trans (congrArg some (Except.ok.inj hok))⟩

theorem fwrite_ok {file : Option Nat} {buf : List UInt8} (hok : fwrite file buf w = .ok w') :
    ∃ f, file = some f ∧ w' = w.setRecording f { w.recording f with
      written := (w.recording f).written ++ [buf] } := by
  unfold fwrite at hok
  split at hok
  · cases hok
  · rename_i f
    split at hok
    · exact ⟨f, rfl, (Except.ok.inj hok).symm⟩
    · cases hok

/-- Write thread `k` goes to state `st`. -/
def goTo (k : Nat) (st : WriterState) (w : WriteComponent) : WriteComponent :=
  w.setRecording k { w.recording k with writer := some st }

section GoTo

variable {st : WriterState}

theorem recording_goTo_of_ne {j : Nat} (hj : j ≠ k) :
    (goTo k st w).recording j = w.recording j :=
  WriteComponent.recording_setRecording_of_ne _ _ _ hj

@[simp] theorem writer_goTo : ((goTo k st w).recording k).writer = some st := by
  simp [goTo]

@[simp] theorem fileT_goTo : (goTo k st w).fileT = w.fileT := rfl

theorem apply_goTo {β : Type} (f : Recording → β)
    (hf : ∀ r : Recording, f { r with writer := some st } = f r) (j : Nat) :
    f ((goTo k st w).recording j) = f (w.recording j) :=
  apply_setRecording f (hf _) j

@[simp] theorem node_goTo (j : Nat) :
    ((goTo k st w).recording j).node = (w.recording j).node :=
  apply_goTo Recording.node (fun _ => rfl) j

@[simp] theorem queue_goTo (j : Nat) :
    ((goTo k st w).recording j).queue = (w.recording j).queue :=
  apply_goTo Recording.queue (fun _ => rfl) j

end GoTo

/-- What one step of write thread `k` does. -/
inductive ThreadStep (freed : List Nat) (k : Nat) (w : WriteComponent) : WriteComponent → Prop where
  | idle (h : busy (w.recording k) = false) : ThreadStep freed k w w
  | fetched (t : WriteFile) (hwriter : (w.recording k).writer = some .fetch)
      (hslot : w.fileT (w.recording k).node = some t) :
      ThreadStep freed k w (goTo k (.pop t.queue) w)
  | waits (q : Nat) (hwriter : (w.recording k).writer = some (.pop (some q))) :
      ThreadStep freed k w w
  | popped (q : Nat) (item : QueueItem) (items : List QueueItem)
      (hwriter : (w.recording k).writer = some (.pop (some q)))
      (hitems : (w.recording q).queue = some (item :: items)) :
      ThreadStep freed k w
        (goTo k (if item.buf.length = 0 then .post else .write item.buf)
          (w.setRecording q { w.recording q with queue := some items }))
  | wrote (buf : List UInt8) (t : WriteFile) (f : Nat)
      (hwriter : (w.recording k).writer = some (.write buf))
      (hslot : w.fileT (w.recording k).node = some t) (hfile : t.file = some f) :
      ThreadStep freed k w
        (goTo k .fetch (w.setRecording f { w.recording f with
          written := (w.recording f).written ++ [buf] }))
  | posted (hwriter : (w.recording k).writer = some .post) :
      ThreadStep freed k w
        (goTo k .exited { w with
          posted := w.posted ++ [{ node := (w.recording k).node, writer := k }] })

theorem threadStep_of_writeThread (hok : writeThread freed k w = .ok w') :
    ThreadStep freed k w w' := by
  unfold writeThread at hok
  dsimp only at hok
  split at hok
  · rename_i hwriter
    obtain rfl := Except.ok.inj hok
    exact .idle (by simp [busy, hwriter])
  · rename_i hwriter
    obtain rfl := Except.ok.inj hok
    exact .idle (by simp [busy, hwriter])
  · rename_i hwriter
    obtain ⟨t, hslot, hok⟩ := bind_eq_ok.mp hok
    obtain rfl := Except.ok.inj hok
    exact .fetched t hwriter (writeFileOf_ok hslot).2
  · cases hok
  · rename_i q hwriter
    split at hok
    · cases hok
    · obtain rfl := Except.ok.inj hok
      exact .waits q hwriter
    · rename_i item items hitems
      obtain rfl := Except.ok.inj hok
      exact .popped q item items hwriter hitems
  · rename_i buf hwriter
    obtain ⟨t, hslot, hok⟩ := bind_eq_ok.mp hok
    obtain ⟨w₁, hwrite, hok⟩ := bind_eq_ok.mp hok
    obtain rfl := Except.ok.inj hok
    obtain ⟨f, hfile, rfl⟩ := fwrite_ok hwrite
    exact .wrote buf t f hwriter (writeFileOf_ok hslot).2 hfile
  · rename_i hwriter
    obtain rfl := Except.ok.inj hok
    exact .posted hwriter

theorem countP_range_of_ne {p q : Nat → Bool} {k n : Nat} (hk : k < n)
    (hsame : ∀ j, j ≠ k → q j = p j) :
    (List.range n).countP q + (p k).toNat = (List.range n).countP p + (q k).toNat := by
  induction n with
  | zero => exact absurd hk (Nat.not_lt_zero k)
  | succ n ih =>
      simp only [List.range_succ, List.countP_append, List.countP_singleton]
      rcases eq_or_ne k n with rfl | hne
      · have hbefore : (List.range k).countP q = (List.range k).countP p := by
          apply List.countP_congr
          intro j hj
          rw [hsame j (Nat.ne_of_lt (List.mem_range.mp hj))]
        rw [hbefore]
        cases p k <;> cases q k <;> simp
      · have hlt := ih (Nat.lt_of_le_of_ne (Nat.le_of_lt_succ hk) hne)
        rw [hsame n hne.symm]
        omega

theorem writeThread_of_idle (hidle : ¬ busy (w.recording k) = true)
    (hok : writeThread freed k w = .ok w') : w' = w := by
  cases threadStep_of_writeThread hok with
  | idle | waits => rfl
  | fetched _ hwriter | popped _ _ _ hwriter | wrote _ _ _ hwriter | posted hwriter =>
      exact absurd (by simp [busy, hwriter]) hidle

theorem quiet_goTo {st : WriterState} (hbusy : busy (w.recording k) = true)
    (hst : st ≠ .exited)
    (hreads : ∀ q, st = .pop (some q) →
      q < w.starts ∧ (w.recording q).node = (w.recording k).node) :
    Quiet w (goTo k st w) := by
  refine .setRecording rfl ?_ rfl rfl (.inr fun q hq => hreads q (Option.some.inj hq))
  rw [hbusy]
  cases st <;> first | rfl | exact absurd rfl hst

theorem attendants_exit (hk : k < w.starts) (hbusy : busy (w.recording k) = true) (a : Nat) :
    attendants (goTo k .exited { w with
      posted := w.posted ++ [{ node := (w.recording k).node, writer := k }] }) a =
      attendants w a := by
  have hcount := countP_range_of_ne (p := fun j => tends a (w.recording j))
    (q := fun j => tends a ((goTo k .exited w).recording j)) hk ?_
  · have hold : tends a (w.recording k) = decide ((w.recording k).node = a) := by
      simp [tends, hbusy]
    have hnew : tends a ((goTo k .exited w).recording k) = false := by simp [tends, busy]
    simp only [hold, hnew, Bool.toNat_false] at hcount
    simp only [attendants, goTo, WriteComponent.setRecording, List.countP_append,
      List.countP_singleton, decide_eq_true_eq] at hcount ⊢
    split
    · simp_all
      omega
    · simp_all
  · intro j hj
    rw [recording_goTo_of_ne hj]

theorem Slotted.exit (h : Slotted w allocated) (hk : k < w.starts) :
    Slotted (goTo k .exited w) allocated := by
  refine ⟨h.fresh, h.enabled, ?_, ?_, ?_, ?_⟩
  · intro m t j hm hfile
    obtain ⟨hj, hfile⟩ := h.file m t j hm hfile
    refine ⟨hj, ?_⟩
    rwa [apply_goTo (fun r => r.node = m ∧ r.isOpen = true) (fun _ => rfl)]
  · intro m t j hm hqueue
    obtain ⟨hj, hqueue⟩ := h.queue m t j hm hqueue
    refine ⟨hj, ?_⟩
    rwa [apply_goTo (fun r => r.node = m ∧ r.queue.isSome = true) (fun _ => rfl)]
  · intro j hj
    have hne : j ≠ k := Nat.ne_of_gt (Nat.lt_of_lt_of_le hk hj)
    rw [recording_goTo_of_ne hne]
    exact h.unused j hj
  · intro j q hreads
    rw [node_goTo, node_goTo]
    rcases eq_or_ne j k with rfl | hj
    · simp at hreads
    · rw [recording_goTo_of_ne hj] at hreads
      exact h.reads j q hreads

theorem writeThread_slotted (h : Slotted w allocated) (hok : writeThread freed k w = .ok w') :
    Slotted w' allocated ∧ w'.fileT = w.fileT ∧ ∀ a, attendants w' a = attendants w a := by
  have hquiet : ∀ {u}, Quiet w u → u.fileT = w.fileT →
      Slotted u allocated ∧ u.fileT = w.fileT ∧ ∀ a, attendants u a = attendants w a :=
    fun hu hslots => ⟨h.of_quiet hu, hslots, hu.attendants⟩
  cases threadStep_of_writeThread hok with
  | idle | waits => exact hquiet (.refl w) rfl
  | fetched t hwriter hslot =>
      refine hquiet (quiet_goTo (by simp [busy, hwriter]) (by simp) fun q hq => ?_) rfl
      obtain ⟨hlt, hnode, -⟩ := h.queue _ t q hslot (WriterState.pop.inj hq)
      exact ⟨hlt, hnode⟩
  | popped q item items hwriter hitems =>
      have htake : Quiet w (w.setRecording q { w.recording q with queue := some items }) :=
        .setRecording rfl rfl rfl (by simp [hitems]) (.inl rfl)
      refine hquiet (htake.trans (quiet_goTo ?_ ?_ ?_)) rfl
      · rw [htake.busy]
        simp [busy, hwriter]
      · split <;> simp
      · split <;> simp
  | wrote buf t f hwriter hslot hfile =>
      have hwrite : Quiet w (w.setRecording f { w.recording f with
          written := (w.recording f).written ++ [buf] }) :=
        .setRecording rfl rfl rfl rfl (.inl rfl)
      refine hquiet (hwrite.trans (quiet_goTo ?_ (by simp) (by simp))) rfl
      rw [hwrite.busy]
      simp [busy, hwriter]
  | posted hwriter =>
      have hbusy : busy (w.recording k) = true := by simp [busy, hwriter]
      have hk := h.lt_starts hbusy
      exact ⟨Slotted.exit (h.post _) hk, rfl, attendants_exit hk hbusy⟩

/-- What a message that is handled takes away: the slot of its node, and what
the recordings made for the node still have open. -/
structure TakesAway (n : Nat) (w w' : WriteComponent) : Prop where
  fileT : w'.fileT = Function.update w.fileT n none
  starts : w'.starts = w.starts
  posted : w'.posted = w.posted
  node : ∀ k, (w'.recording k).node = (w.recording k).node
  writer : ∀ k, (w'.recording k).writer = (w.recording k).writer
  others : ∀ k, (w.recording k).node ≠ n → w'.recording k = w.recording k

/-- A message that is handled finds its node, a file that is open, and a queue. -/
theorem clearWriteStatus_clears (hok : clearWriteStatus freed n w = .ok w') :
    n ∉ freed ∧ ∃ t k q, w.fileT n = some t ∧ t.file = some k ∧ t.queue = some q ∧
      let closed := w.setRecording k { w.recording k with isOpen := false }
      w' = (closed.setRecording q { closed.recording q with queue := none }).setFileT n none := by
  obtain ⟨t, hslot, hok⟩ := bind_eq_ok.mp hok
  obtain ⟨w₁, hclose, hok⟩ := bind_eq_ok.mp hok
  obtain ⟨w₂, hdestroy, hok⟩ := bind_eq_ok.mp hok
  obtain rfl := Except.ok.inj hok
  obtain ⟨hfreed, hslot⟩ := writeFileOf_ok hslot
  unfold fclose at hclose
  split at hclose
  · cases hclose
  · rename_i k hfile
    split at hclose
    · obtain rfl := Except.ok.inj hclose
      unfold tinyQueueDestory at hdestroy
      split at hdestroy
      · cases hdestroy
      · rename_i q hqueue
        split at hdestroy
        · cases hdestroy
        · obtain rfl := Except.ok.inj hdestroy
          exact ⟨hfreed, t, k, q, hslot, hfile, hqueue, rfl⟩
    · cases hclose

theorem clearWriteStatus_takesAway (h : Slotted w allocated)
    (hok : clearWriteStatus freed n w = .ok w') :
    n ∉ freed ∧ (∃ t, w.fileT n = some t ∧ t.file.isSome = true ∧ t.queue.isSome = true) ∧
      TakesAway n w w' := by
  obtain ⟨hfreed, t, k, q, hslot, hfile, hqueue, rfl⟩ := clearWriteStatus_clears hok
  obtain ⟨-, hk, -⟩ := h.file n t k hslot hfile
  obtain ⟨-, hq, -⟩ := h.queue n t q hslot hqueue
  refine ⟨hfreed, ⟨t, hslot, by simp [hfile], by simp [hqueue]⟩, rfl, rfl, rfl,
    fun j => ?_, fun j => ?_, fun j hj => ?_⟩
  · rw [WriteComponent.recording_setFileT]
    refine (apply_setRecording Recording.node ?_ j).trans
      (apply_setRecording Recording.node ?_ j) <;> rfl
  · rw [WriteComponent.recording_setFileT]
    refine (apply_setRecording Recording.writer ?_ j).trans
      (apply_setRecording Recording.writer ?_ j) <;> rfl
  · have hjk : j ≠ k := fun heq => hj (heq ▸ hk)
    have hjq : j ≠ q := fun heq => hj (heq ▸ hq)
    exact (WriteComponent.recording_setRecording_of_ne _ _ _ hjq).trans
      (WriteComponent.recording_setRecording_of_ne _ _ _ hjk)

theorem clearWriteStatus_isOk (h : Slotted w allocated) (hfreed : n ∉ freed)
    (hslot : w.fileT n = some t) (hfile : t.file.isSome = true) (hqueue : t.queue.isSome = true) :
    ∃ w', clearWriteStatus freed n w = .ok w' := by
  obtain ⟨k, hk⟩ := Option.isSome_iff_exists.mp hfile
  obtain ⟨q, hq⟩ := Option.isSome_iff_exists.mp hqueue
  obtain ⟨-, -, hopen⟩ := h.file n t k hslot hk
  obtain ⟨-, -, hitems⟩ := h.queue n t q hslot hq
  have hclosed :
      ((w.setRecording k { w.recording k with isOpen := false }).recording q).queue.isSome =
      true := by
    rw [apply_setRecording (fun r => r.queue.isSome) (by rfl), hitems]
  obtain ⟨items, hitems⟩ := Option.isSome_iff_exists.mp hclosed
  simp only [clearWriteStatus, writeFileOf, hfreed, if_false, hslot, bind, Except.bind, fclose, hk,
    hopen, if_true, tinyQueueDestory, hq, hitems]
  exact ⟨_, rfl⟩

theorem TakesAway.busy (htakes : TakesAway n w w') (k : Nat) :
    WriteSlots.busy (w'.recording k) = WriteSlots.busy (w.recording k) := by
  unfold WriteSlots.busy
  rw [htakes.writer]

theorem TakesAway.slotted (h : Slotted w allocated) (htakes : TakesAway n w w') :
    Slotted w' allocated := by
  have hslot : ∀ {m t}, w'.fileT m = some t → m ≠ n ∧ w.fileT m = some t := by
    intro m t hm
    rw [htakes.fileT] at hm
    rcases eq_or_ne m n with rfl | hne
    · simp at hm
    · rw [Function.update_of_ne hne] at hm
      exact ⟨hne, hm⟩
  refine ⟨fun m hm => ?_, fun m t hm => h.enabled m t (hslot hm).2, ?_, ?_, fun k hk => ?_,
    fun k q hreads => ?_⟩
  · have hold := h.fresh m hm
    rcases hnew : w'.fileT m with _ | t
    · rfl
    · rw [(hslot hnew).2] at hold
      cases hold
  · intro m t k hm hfile
    obtain ⟨hne, hm⟩ := hslot hm
    obtain ⟨hk, hnode, hopen⟩ := h.file m t k hm hfile
    rw [htakes.starts, htakes.others k (hnode ▸ hne)]
    exact ⟨hk, hnode, hopen⟩
  · intro m t k hm hqueue
    obtain ⟨hne, hm⟩ := hslot hm
    obtain ⟨hk, hnode, hitems⟩ := h.queue m t k hm hqueue
    rw [htakes.starts, htakes.others k (hnode ▸ hne)]
    exact ⟨hk, hnode, hitems⟩
  · rw [htakes.busy]
    exact h.unused k (htakes.starts ▸ hk)
  · rw [htakes.starts, htakes.node, htakes.node]
    exact h.reads k q (htakes.writer k ▸ hreads)

theorem TakesAway.runs (htakes : TakesAway n w w') (a : Nat) :
    Runs w' a ↔ Runs w a ∧ a ≠ n := by
  unfold Runs
  rw [htakes.fileT]
  rcases eq_or_ne a n with rfl | hne
  · simp
  · simp [hne]

theorem TakesAway.attendants (htakes : TakesAway n w w') (a : Nat) :
    WriteSlots.attendants w' a = WriteSlots.attendants w a := by
  have htends : (fun k => tends a (w'.recording k)) = fun k => tends a (w.recording k) := by
    funext k
    simp only [tends, htakes.node, htakes.busy]
  simp only [WriteSlots.attendants, htakes.starts, htakes.posted, htends]

end GwWeb.WriteThreads
