import Mathlib.Data.List.Range
import GwWeb.WebCommon

/-!
What the write components keep whatever the order of the commands: a file or a
queue that a `write_file_t` names is there, and was made for its node.
-/

namespace GwWeb.WriteSlots

open GwWeb.WebCommon

/-- The write thread has not ended. -/
def busy (r : Recording) : Bool :=
  match r.writer with
  | none => false
  | some .exited => false
  | some _ => true

/-- The node records: its `write_file_t` is enabled and has a queue. -/
def Runs (w : WriteComponent) (node : Nat) : Prop :=
  ∃ t ∈ w.fileT node, t.enable = 1 ∧ t.queue.isSome = true

instance (w : WriteComponent) (node : Nat) : Decidable (Runs w node) :=
  inferInstanceAs (Decidable (∃ t ∈ w.fileT node, t.enable = 1 ∧ t.queue.isSome = true))

/-- The queue that a write thread of `r` is popping from was made for its node. -/
def ReadsOwn (w : WriteComponent) (r : Recording) : Prop :=
  ∀ q, r.writer = some (.pop (some q)) → q < w.starts ∧ (w.recording q).node = r.node

/-- A slot refers to files and queues of its own node. -/
structure Slotted (w : WriteComponent) (allocated : Nat) : Prop where
  fresh : ∀ n, allocated ≤ n → w.fileT n = none
  enabled : ∀ n t, w.fileT n = some t → t.enable = 1 → t.queue.isSome = true
  file : ∀ n t k, w.fileT n = some t → t.file = some k →
    k < w.starts ∧ (w.recording k).node = n ∧ (w.recording k).isOpen = true
  queue : ∀ n t k, w.fileT n = some t → t.queue = some k →
    k < w.starts ∧ (w.recording k).node = n ∧ (w.recording k).queue.isSome = true
  unused : ∀ k, w.starts ≤ k → busy (w.recording k) = false
  reads : ∀ k, ReadsOwn w (w.recording k)

/-- Nothing is started, closed or posted; at most some slots are disabled. -/
structure Quiet (w w' : WriteComponent) : Prop where
  starts : w'.starts = w.starts
  posted : w'.posted = w.posted
  slots : ∀ n, w'.fileT n = w.fileT n ∨
    ∃ t, w.fileT n = some t ∧ w'.fileT n = some { t with enable := 0 }
  node : ∀ k, (w'.recording k).node = (w.recording k).node
  busy : ∀ k, WriteSlots.busy (w'.recording k) = WriteSlots.busy (w.recording k)
  isOpen : ∀ k, (w'.recording k).isOpen = (w.recording k).isOpen
  queue : ∀ k, (w'.recording k).queue.isSome = (w.recording k).queue.isSome
  writer : ∀ k, (w'.recording k).writer = (w.recording k).writer ∨ ReadsOwn w (w'.recording k)

/-- A write thread of node `a` that has not ended. -/
def tends (a : Nat) (r : Recording) : Bool := r.node = a ∧ busy r

/-- The write threads and posted messages there are for node `a`. -/
def attendants (w : WriteComponent) (a : Nat) : Nat :=
  ((List.range w.starts).countP fun k => tends a (w.recording k)) +
    w.posted.countP fun m => m.node = a

variable {w w' w'' : WriteComponent} {allocated n k : Nat} {t : WriteFile} {r : Recording}

theorem busy_congr {r' : Recording} (h : r'.writer = r.writer) : busy r' = busy r := by
  simp only [busy, h]

theorem runs_iff (hslot : w.fileT n = some t) :
    Runs w n ↔ t.enable = 1 ∧ t.queue.isSome = true := by
  simp [Runs, hslot]

theorem not_runs_of_none (hslot : w.fileT n = none) : ¬ Runs w n := by
  simp [Runs, hslot]

theorem runs_congr {a : Nat} (hslot : w'.fileT a = w.fileT a) : Runs w' a ↔ Runs w a := by
  unfold Runs
  rw [hslot]

theorem Slotted.runs_iff_enabled (h : Slotted w allocated) (hslot : w.fileT n = some t) :
    Runs w n ↔ t.enable = 1 := by
  rw [runs_iff hslot]
  exact ⟨fun hruns => hruns.1, fun henable => ⟨henable, h.enabled n t hslot henable⟩⟩

theorem Slotted.lt_allocated (h : Slotted w allocated) (hslot : w.fileT n = some t) :
    n < allocated := by
  rcases Nat.lt_or_ge n allocated with hlt | hge
  · exact hlt
  · rw [h.fresh n hge] at hslot
    cases hslot

theorem Slotted.lt_starts (h : Slotted w allocated) (hbusy : busy (w.recording k) = true) :
    k < w.starts := by
  by_contra hge
  rw [h.unused k (Nat.le_of_not_lt hge)] at hbusy
  cases hbusy

theorem slotted_empty : Slotted .empty 0 where
  fresh := fun _ _ => rfl
  enabled := by simp [WriteComponent.empty]
  file := by simp [WriteComponent.empty]
  queue := by simp [WriteComponent.empty]
  unused := fun _ _ => rfl
  reads := by
    intro k q hreads
    cases hreads

theorem Slotted.allocate (h : Slotted w allocated) {allocated' : Nat}
    (hle : allocated ≤ allocated') : Slotted w allocated' :=
  ⟨fun n hn => h.fresh n (Nat.le_trans hle hn), h.enabled, h.file, h.queue, h.unused, h.reads⟩

theorem Slotted.post (h : Slotted w allocated) (posted : List ClearStatus) :
    Slotted { w with posted } allocated :=
  ⟨h.fresh, h.enabled, h.file, h.queue, h.unused, h.reads⟩

section Quiet

theorem Quiet.refl (w : WriteComponent) : Quiet w w :=
  ⟨rfl, rfl, fun _ => .inl rfl, fun _ => rfl, fun _ => rfl, fun _ => rfl, fun _ => rfl,
    fun _ => .inl rfl⟩

theorem Quiet.readsOwn (h : Quiet w w') {r : Recording} (hr : ReadsOwn w' r) : ReadsOwn w r := by
  intro q hreads
  obtain ⟨hlt, hnode⟩ := hr q hreads
  exact ⟨h.starts ▸ hlt, (h.node q).symm.trans hnode⟩

theorem Quiet.trans (h : Quiet w w') (h' : Quiet w' w'') : Quiet w w'' where
  starts := h'.starts.trans h.starts
  posted := h'.posted.trans h.posted
  slots := by
    intro n
    rcases h.slots n with heq | ⟨t, hslot, hslot'⟩
    · rw [← heq]
      exact h'.slots n
    · rcases h'.slots n with heq | ⟨t', hslot'', heq⟩
      · exact .inr ⟨t, hslot, heq.trans hslot'⟩
      · obtain rfl := Option.some.inj (hslot'.symm.trans hslot'')
        exact .inr ⟨t, hslot, heq⟩
  node := fun k => (h'.node k).trans (h.node k)
  busy := fun k => (h'.busy k).trans (h.busy k)
  isOpen := fun k => (h'.isOpen k).trans (h.isOpen k)
  queue := fun k => (h'.queue k).trans (h.queue k)
  writer := by
    intro k
    rcases h'.writer k with hsame | hreads
    · rw [hsame]
      refine (h.writer k).imp_right fun hreads q hq => ?_
      rw [h'.node]
      exact hreads q (hsame ▸ hq)
    · exact .inr (h.readsOwn hreads)

theorem apply_setRecording {β : Type} (f : Recording → β) (hf : f r = f (w.recording k))
    (j : Nat) : f ((w.setRecording k r).recording j) = f (w.recording j) := by
  rcases eq_or_ne j k with rfl | hj
  · rw [WriteComponent.recording_setRecording, hf]
  · rw [WriteComponent.recording_setRecording_of_ne _ _ _ hj]

theorem Quiet.setRecording (hnode : r.node = (w.recording k).node)
    (hbusy : WriteSlots.busy r = WriteSlots.busy (w.recording k))
    (hopen : r.isOpen = (w.recording k).isOpen)
    (hqueue : r.queue.isSome = (w.recording k).queue.isSome)
    (hwriter : r.writer = (w.recording k).writer ∨ ReadsOwn w r) :
    Quiet w (w.setRecording k r) := by
  refine ⟨rfl, rfl, fun _ => .inl rfl, apply_setRecording _ hnode, apply_setRecording _ hbusy,
    apply_setRecording _ hopen, apply_setRecording (fun r => r.queue.isSome) hqueue, fun j => ?_⟩
  rcases eq_or_ne j k with rfl | hj
  · rwa [WriteComponent.recording_setRecording]
  · rw [WriteComponent.recording_setRecording_of_ne _ _ _ hj]
    exact .inl rfl

theorem Quiet.disable (hslot : w.fileT n = some t) :
    Quiet w (w.setFileT n (some { t with enable := 0 })) := by
  refine ⟨rfl, rfl, fun m => ?_, fun _ => rfl, fun _ => rfl, fun _ => rfl, fun _ => rfl,
    fun _ => .inl rfl⟩
  rcases eq_or_ne m n with rfl | hm
  · exact .inr ⟨t, hslot, by simp⟩
  · exact .inl (WriteComponent.fileT_setFileT_of_ne _ _ _ hm)

theorem Quiet.slot (h : Quiet w w') {t' : WriteFile} (hslot : w'.fileT n = some t') :
    ∃ t, w.fileT n = some t ∧ t'.file = t.file ∧ t'.queue = t.queue ∧
      (t'.enable = 1 → t.enable = 1) := by
  rcases h.slots n with heq | ⟨t, hold, hnew⟩
  · exact ⟨t', heq ▸ hslot, rfl, rfl, fun henable => henable⟩
  · obtain rfl := Option.some.inj (hnew.symm.trans hslot)
    exact ⟨t, hold, rfl, rfl, by simp⟩

theorem Slotted.of_quiet (h : Slotted w allocated) (hq : Quiet w w') :
    Slotted w' allocated where
  fresh := by
    intro n hn
    rcases hq.slots n with heq | ⟨t, hold, -⟩
    · exact heq.trans (h.fresh n hn)
    · rw [h.fresh n hn] at hold
      cases hold
  enabled := by
    intro n t' hslot henable
    obtain ⟨t, hold, -, hqueue, hkeep⟩ := hq.slot hslot
    rw [hqueue]
    exact h.enabled n t hold (hkeep henable)
  file := by
    intro n t' k hslot hfile
    obtain ⟨t, hold, hsame, -, -⟩ := hq.slot hslot
    rw [hq.starts, hq.node, hq.isOpen]
    exact h.file n t k hold (hsame ▸ hfile)
  queue := by
    intro n t' k hslot hqueue
    obtain ⟨t, hold, -, hsame, -⟩ := hq.slot hslot
    rw [hq.starts, hq.node, hq.queue]
    exact h.queue n t k hold (hsame ▸ hqueue)
  unused := by
    intro k hk
    rw [hq.busy]
    exact h.unused k (hq.starts ▸ hk)
  reads := by
    intro k q hreads
    rw [hq.starts, hq.node, hq.node]
    rcases hq.writer k with hsame | hown
    · exact h.reads k q (hsame ▸ hreads)
    · rw [← hq.node k]
      exact hown q hreads

theorem Quiet.attendants (h : Quiet w w') (a : Nat) :
    WriteSlots.attendants w' a = WriteSlots.attendants w a := by
  have htends : (fun k => tends a (w'.recording k)) = fun k => tends a (w.recording k) := by
    funext k
    simp only [tends, h.node, h.busy]
  simp only [WriteSlots.attendants, h.starts, h.posted, htends]

end Quiet

section Operations

theorem quiet_tinyQueuePush {queue : Option Nat} {item : QueueItem} {memory : Bool}
    (hok : tinyQueuePush queue item memory w = .ok w') : Quiet w w' ∧ w'.fileT = w.fileT := by
  rcases tinyQueuePush_ok hok with ⟨-, rfl⟩ | ⟨-, k, items, -, hitems, rfl⟩
  · exact ⟨.refl w', rfl⟩
  · exact ⟨.setRecording rfl rfl rfl (by simp [hitems]) (.inl rfl), rfl⟩

theorem quiet_informStop {reply : SaveReplies} (hok : informStop n reply w = .ok w') :
    Quiet w w' ∧ ∃ t, w.fileT n = some t ∧ w'.fileT n = some { t with enable := 0 } ∧
      ∀ m, m ≠ n → w'.fileT m = w.fileT m := by
  obtain ⟨t, w₁, hslot, hpush, rfl⟩ := informStop_pushes hok
  obtain ⟨hquiet, hsame⟩ := quiet_tinyQueuePush hpush
  have hslot₁ : w₁.fileT n = some t := by rw [hsame, hslot]
  refine ⟨hquiet.trans (.disable hslot₁), t, hslot, by simp, fun m hm => ?_⟩
  rw [WriteComponent.fileT_setFileT_of_ne _ _ _ hm, hsame]

theorem not_runs_informStop {reply : SaveReplies} (hok : informStop n reply w = .ok w') :
    ¬ Runs w' n := by
  obtain ⟨-, t, -, hslot, -⟩ := quiet_informStop hok
  rw [runs_iff hslot]
  simp

theorem quiet_queueRecord {buf : List UInt8} {memory : Bool}
    (hok : queueRecord t buf memory w = .ok w') : Quiet w w' ∧ w'.fileT = w.fileT := by
  rcases queueRecord_ok hok with ⟨-, rfl⟩ | ⟨-, k, items, -, hitems, rfl⟩
  · exact ⟨.refl w', rfl⟩
  · exact ⟨.setRecording rfl rfl rfl (by simp [hitems]) (.inl rfl), rfl⟩

/-- The loop only disables slots that did not record: those with `enable` 2. -/
theorem quiet_sendToSave {record : Except Fault (List UInt8)} {knowsTwo : Bool}
    {reply : SaveReplies} (nodes : List Nat)
    (hok : sendToSave record knowsTwo reply nodes w = .ok w') :
    Quiet w w' ∧ ∀ a, Runs w' a ↔ Runs w a := by
  replace hok := sent_of_sendToSave hok
  induction hok with
  | done w => exact ⟨.refl w, fun _ => Iff.rfl⟩
  | ended => exact ⟨.refl _, fun _ => Iff.rfl⟩
  | skipped _ _ ih => exact ih
  | queued _ _ _ hqueue _ ih =>
      obtain ⟨hquiet, hsame⟩ := quiet_queueRecord hqueue
      obtain ⟨hrest, hruns⟩ := ih
      refine ⟨hquiet.trans hrest, fun a => (hruns a).trans ?_⟩
      exact runs_congr (congrFun hsame a)
  | @stopped n _ w _ _ _ hslot htwo hstop _ ih =>
      obtain ⟨hrest, hruns⟩ := ih
      obtain ⟨hquiet, -, -, -, hothers⟩ := quiet_informStop hstop
      refine ⟨hquiet.trans hrest, fun a => (hruns a).trans ?_⟩
      rcases eq_or_ne a n with rfl | ha
      · have hidle : ¬ Runs w a := by
          rw [runs_iff hslot, htwo]
          simp
        exact iff_of_false (not_runs_informStop hstop) hidle
      · exact runs_congr (hothers a ha)

/-- What a start command changes: slot `n` and a recording of its own. -/
structure StartsAt (n : Nat) (w w' : WriteComponent) : Prop where
  slots : ∀ m, m ≠ n → w'.fileT m = w.fileT m
  attendants : ∀ a, a ≠ n → attendants w' a = attendants w a

theorem attendants_start {a : Nat} (hnode : r.node ≠ a) :
    attendants ({ w with starts := w.starts + 1 }.setRecording w.starts r) a =
      attendants w a := by
  have hlater : (List.range w.starts).countP (fun k => tends a
        (({ w with starts := w.starts + 1 }.setRecording w.starts r).recording k)) =
      (List.range w.starts).countP fun k => tends a (w.recording k) := by
    apply List.countP_congr
    intro k hk
    have hne : k ≠ w.starts := Nat.ne_of_lt (List.mem_range.mp hk)
    rw [WriteComponent.recording_setRecording_of_ne _ _ _ hne]
  have hnew : tends a r = false := by simp [tends, hnode]
  unfold attendants
  show (List.range (w.starts + 1)).countP _ + _ = _
  rw [List.range_succ, List.countP_append, hlater]
  simp [hnew, WriteComponent.setRecording]

theorem Slotted.setFileT (h : Slotted w allocated) (hn : n < allocated)
    (henabled : t.enable = 1 → t.queue.isSome = true)
    (hfile : ∀ k, t.file = some k →
      k < w.starts ∧ (w.recording k).node = n ∧ (w.recording k).isOpen = true)
    (hqueue : ∀ k, t.queue = some k →
      k < w.starts ∧ (w.recording k).node = n ∧ (w.recording k).queue.isSome = true) :
    Slotted (w.setFileT n (some t)) allocated := by
  have hslot : ∀ {m t'}, (w.setFileT n (some t)).fileT m = some t' →
      m = n ∧ t' = t ∨ w.fileT m = some t' := by
    intro m t' hm
    rcases eq_or_ne m n with rfl | hne
    · rw [WriteComponent.fileT_setFileT] at hm
      exact .inl ⟨rfl, (Option.some.inj hm).symm⟩
    · rw [WriteComponent.fileT_setFileT_of_ne _ _ _ hne] at hm
      exact .inr hm
  refine ⟨?_, ?_, ?_, ?_, h.unused, h.reads⟩
  · intro m hm
    rw [WriteComponent.fileT_setFileT_of_ne _ _ _ (Nat.ne_of_gt (Nat.lt_of_lt_of_le hn hm))]
    exact h.fresh m hm
  · intro m t' hm
    rcases hslot hm with ⟨rfl, rfl⟩ | hold
    · exact henabled
    · exact h.enabled m t' hold
  · intro m t' k hm
    rcases hslot hm with ⟨rfl, rfl⟩ | hold
    · exact hfile k
    · exact h.file m t' k hold
  · intro m t' k hm
    rcases hslot hm with ⟨rfl, rfl⟩ | hold
    · exact hqueue k
    · exact h.queue m t' k hold

theorem Slotted.take (h : Slotted w allocated) (hr : ∀ q, r.writer ≠ some (.pop (some q))) :
    Slotted ({ w with starts := w.starts + 1 }.setRecording w.starts r) allocated := by
  have hold : ∀ {k}, k < w.starts →
      ({ w with starts := w.starts + 1 }.setRecording w.starts r).recording k =
        w.recording k :=
    fun hk => WriteComponent.recording_setRecording_of_ne _ _ _ (Nat.ne_of_lt hk)
  refine ⟨h.fresh, h.enabled, ?_, ?_, ?_, ?_⟩
  · intro m t k hm hfile
    obtain ⟨hk, hnode, hopen⟩ := h.file m t k hm hfile
    rw [hold hk]
    exact ⟨Nat.lt_succ_of_lt hk, hnode, hopen⟩
  · intro m t k hm hqueue
    obtain ⟨hk, hnode, hitems⟩ := h.queue m t k hm hqueue
    rw [hold hk]
    exact ⟨Nat.lt_succ_of_lt hk, hnode, hitems⟩
  · intro k hk
    have hne : k ≠ w.starts := Nat.ne_of_gt hk
    rw [WriteComponent.recording_setRecording_of_ne _ _ _ hne]
    exact h.unused k (Nat.le_of_lt hk)
  · intro k q hreads
    rcases eq_or_ne k w.starts with rfl | hne
    · rw [WriteComponent.recording_setRecording] at hreads
      exact absurd hreads (hr q)
    · rw [WriteComponent.recording_setRecording_of_ne _ _ _ hne] at hreads ⊢
      obtain ⟨hlt, hnode⟩ := h.reads k q hreads
      rw [hold hlt]
      exact ⟨Nat.lt_succ_of_lt hlt, hnode⟩

/-- A start command records with its file open and its queue made, and not at
all otherwise. -/
theorem startSave_slotted (h : Slotted w allocated) (hslot : w.fileT n = some t)
    (henable : t.enable ≠ 1) (name : String) (reply : SaveReplies) :
    Slotted (startSave n t name reply w).2 allocated ∧
      StartsAt n w (startSave n t name reply w).2 ∧
      ((startSave n t name reply w).1 = 0 ↔ reply.fopen ∧ reply.tinyQueueCreate) ∧
      (Runs (startSave n t name reply w).2 n ↔ reply.fopen ∧ reply.tinyQueueCreate) := by
  have hn := h.lt_allocated hslot
  unfold startSave
  split
  · rename_i hopen
    dsimp only
    split
    · rename_i hcreate
      refine ⟨(h.take (by simp)).setFileT hn (fun _ => rfl) ?_ ?_, ⟨?_, ?_⟩,
        by simp [hopen, hcreate], ?_⟩
      · rintro k ⟨⟩
        simp [WriteComponent.setRecording]
      · rintro k ⟨⟩
        simp [WriteComponent.setRecording]
      · exact fun m hm => WriteComponent.fileT_setFileT_of_ne _ _ _ hm
      · exact fun a ha => attendants_start ha.symm
      · rw [runs_iff (WriteComponent.fileT_setFileT _ _ _)]
        simp [hopen, hcreate]
    · rename_i hcreate
      refine ⟨(h.take (by simp)).setFileT hn (fun henabled => absurd henabled henable) ?_ (by simp),
        ⟨?_, ?_⟩, by simp [hcreate], ?_⟩
      · rintro k ⟨⟩
        simp [WriteComponent.setRecording]
      · exact fun m hm => WriteComponent.fileT_setFileT_of_ne _ _ _ hm
      · exact fun a ha => attendants_start ha.symm
      · rw [runs_iff (WriteComponent.fileT_setFileT _ _ _)]
        simp [hcreate]
  · rename_i hopen
    refine ⟨h.setFileT hn (h.enabled n t hslot) (by simp) (fun k => h.queue n t k hslot),
      ⟨?_, fun _ _ => rfl⟩, by simp [hopen], ?_⟩
    · exact fun m hm => WriteComponent.fileT_setFileT_of_ne _ _ _ hm
    · rw [runs_iff (WriteComponent.fileT_setFileT _ _ _)]
      simp [hopen, henable]

theorem StartsAt.of_quiet (hquiet : Quiet w w') (hslots : ∀ m, m ≠ n → w'.fileT m = w.fileT m) :
    StartsAt n w w' :=
  ⟨hslots, fun a _ => hquiet.attendants a⟩

/-- What a save command on node `n` returns, and whether the node records behind
it. -/
structure Commanded (already : Int) (n : Nat) (opCmd : Int) (reply : SaveReplies) (ret : Int)
    (w w' : WriteComponent) : Prop where
  starts : StartsAt n w w'
  stop : opCmd = 0 → ¬ Runs w' n ∧ (ret = 0 ∨ ret = already ∧ ¬ Runs w n)
  start : opCmd = 1 → (Runs w' n ↔ Runs w n ∨ reply.fopen ∧ reply.tinyQueueCreate) ∧
    (Runs w n → ret = already) ∧ (¬ Runs w n → (ret = 0 ↔ reply.fopen ∧ reply.tinyQueueCreate))
  other : opCmd ≠ 0 → opCmd ≠ 1 → ret = 0 ∧ (Runs w' n ↔ Runs w n)

theorem Commanded.of_same_runs {w₀ : WriteComponent} {already opCmd ret : Int}
    {reply : SaveReplies} (h : Commanded already n opCmd reply ret w₀ w')
    (hstarts : StartsAt n w w₀) (hruns : Runs w₀ n ↔ Runs w n) :
    Commanded already n opCmd reply ret w w' := by
  obtain ⟨hstarts', hstop, hstart, hother⟩ := h
  rw [hruns] at hstop hstart hother
  refine ⟨⟨fun m hm => ?_, fun a ha => ?_⟩, hstop, hstart, hother⟩
  · rw [hstarts'.slots m hm, hstarts.slots m hm]
  · rw [hstarts'.attendants a ha, hstarts.attendants a ha]

theorem saveCommand_slotted (h : Slotted w allocated) {already ret opCmd : Int} {root : CJson}
    {reply : SaveReplies} (hok : saveCommand already n root reply w = .ok (ret, w'))
    (hcmd : valueint root "op_cmd" = .ok opCmd) :
    Slotted w' allocated ∧ Commanded already n opCmd reply ret w w' := by
  obtain ⟨opCmd', hcmd', hok⟩ := bind_eq_ok.mp hok
  obtain rfl := Except.ok.inj (hcmd.symm.trans hcmd')
  have hsame : ∀ m, m ≠ n → w.fileT m = w.fileT m := fun _ _ => rfl
  split at hok
  · cases hok
  · rename_i t hslot
    have hruns := h.runs_iff_enabled hslot
    split at hok
    · rename_i hzero
      subst hzero
      split at hok
      · rename_i henable
        obtain ⟨rfl, rfl⟩ := Prod.mk.inj (Except.ok.inj hok)
        have hidle : ¬ Runs w n := by
          rw [hruns, henable]
          simp
        exact ⟨h, .of_quiet (.refl w) hsame, fun _ => ⟨hidle, .inr ⟨rfl, hidle⟩⟩,
          by simp, by simp⟩
      · obtain ⟨w₁, hstop, hok⟩ := bind_eq_ok.mp hok
        obtain ⟨rfl, rfl⟩ := Prod.mk.inj (Except.ok.inj hok)
        obtain ⟨hquiet, -, -, -, hothers⟩ := quiet_informStop hstop
        exact ⟨h.of_quiet hquiet, .of_quiet hquiet hothers,
          fun _ => ⟨not_runs_informStop hstop, .inl rfl⟩, by simp, by simp⟩
    · rename_i hnonzero
      split at hok
      · rename_i hone
        subst hone
        split at hok
        · rename_i henable
          obtain ⟨rfl, rfl⟩ := Prod.mk.inj (Except.ok.inj hok)
          have hrun : Runs w n := hruns.mpr henable
          exact ⟨h, .of_quiet (.refl w) hsame, by simp, by simp [hrun], by simp⟩
        · rename_i henable
          obtain ⟨name, -, hok⟩ := bind_eq_ok.mp hok
          have hstart := startSave_slotted h hslot henable name reply
          rw [Except.ok.inj hok] at hstart
          obtain ⟨hslotted, hstarts, hret, hrun⟩ := hstart
          have hidle : ¬ Runs w n := fun hrunning => henable (hruns.mp hrunning)
          exact ⟨hslotted, hstarts, by simp, fun _ => ⟨by simp [hrun, hidle], by simp [hidle],
            fun _ => hret⟩, by simp⟩
      · rename_i hone
        obtain ⟨rfl, rfl⟩ := Prod.mk.inj (Except.ok.inj hok)
        exact ⟨h, .of_quiet (.refl w) hsame, fun hzero => absurd hzero hnonzero,
          fun hstart => absurd hstart hone, fun _ _ => ⟨rfl, Iff.rfl⟩⟩

end Operations

end GwWeb.WriteSlots
