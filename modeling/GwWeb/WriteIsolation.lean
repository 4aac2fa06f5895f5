import GwWeb.DrainedQueue
import GwWeb.WebCommon

/-!
The write components as long as no start command reuses one. Then a queue that
the `write_file_t` of a node names belongs to the start command that opened its
file, and to the one write thread of that command, until its message is handled.
-/

namespace GwWeb.WriteIsolation

open DrainedQueue
open GwWeb.WebCommon

/-- A queue item as its reader takes it. -/
def datum (item : QueueItem) : Option (List UInt8) :=
  if item.buf.length = 0 then none else some item.buf

/-- The record that a write thread has popped. -/
def heldBy : Option WriterState → Option (List UInt8)
  | some (.write buf) => some buf
  | _ => none

/-- The thread has left its loop. -/
def hasStopped : Option WriterState → Bool
  | some .post => true
  | some .exited => true
  | _ => false

/-- A recording as a queue that is drained into a file. -/
def drain (r : Recording) : Drain (List UInt8) :=
  { queued := r.queued
    items := (r.queue.getD []).map datum
    held := heldBy r.writer
    written := r.written
    stopped := hasStopped r.writer }

/-- The recording `r` of start command `k` is the one that the `write_file_t` `t`
of node `n` is about. -/
structure Current (n k : Nat) (t : WriteFile) (r : Recording) : Prop where
  file : t.file = some k
  node : r.node = n
  isOpen : r.isOpen = true
  queue : r.queue.isSome = true
  pops : ∀ q, r.writer = some (.pop q) → q = some k
  accounted : Accounted (drain r)
  enabled : t.enable = 1 → (drain r).Open

/-- The file has what was queued, in order, and all of it once it is closed. -/
def FileKept (r : Recording) : Prop :=
  r.written <+: r.queued ∧ (r.isOpen = false → r.written = r.queued)

theorem Current.fileKept {n k : Nat} {t : WriteFile} {r : Recording} (h : Current n k t r) :
    FileKept r := by
  refine ⟨h.accounted.written_prefix, fun hclosed => ?_⟩
  rw [h.isOpen] at hclosed
  cases hclosed

/-- What the write components keep, with the addresses given out and freed. -/
structure Isolated (w : WriteComponent) (allocated : Nat) (freed : List Nat) : Prop where
  current : ∀ n t k, w.fileT n = some t → t.queue = some k →
    k < w.starts ∧ Current n k t (w.recording k)
  enabled : ∀ n t, w.fileT n = some t → t.enable = 1 → t.queue.isSome = true
  live : ∀ k st, (w.recording k).writer = some st → st.Live →
    ∃ t, w.fileT (w.recording k).node = some t ∧ t.queue = some k
  posted : ∀ m ∈ w.posted, (w.recording m.writer).writer = some .exited ∧
    ∃ t, w.fileT m.node = some t ∧ t.queue = some m.writer
  once : w.posted.Nodup
  announced : ∀ k, (w.recording k).writer = some .exited → (w.recording k).isOpen = true →
    ∃ m ∈ w.posted, m.writer = k
  files : ∀ k, FileKept (w.recording k)
  fresh : ∀ n, allocated ≤ n → w.fileT n = none
  released : ∀ n ∈ freed, w.fileT n = none ∧ n < allocated

theorem isolated_empty : Isolated .empty 0 [] where
  current := by simp [WriteComponent.empty]
  enabled := by simp [WriteComponent.empty]
  live := by simp [WriteComponent.empty, Recording.unused]
  posted := by simp [WriteComponent.empty]
  once := List.nodup_nil
  announced := by simp [WriteComponent.empty, Recording.unused]
  files := fun _ => ⟨List.prefix_rfl, fun _ => rfl⟩
  fresh := fun _ _ => rfl
  released := by simp

/-- The node has no queue. -/
def Unqueued (w : WriteComponent) (n : Nat) : Prop := ∀ t, w.fileT n = some t → t.queue = none

/-- One more start command, which made `r`. -/
def taken (w : WriteComponent) (r : Recording) : WriteComponent :=
  { w with starts := w.starts + 1 }.setRecording w.starts r

/-- The component with its head message handled: file and queue of the writer
are gone, and the `write_file_t` of the node. -/
def cleared (w : WriteComponent) (m : ClearStatus) (ms : List ClearStatus) : WriteComponent :=
  ({ w with posted := ms }.setRecording m.writer
    { w.recording m.writer with isOpen := false, queue := none }).setFileT m.node none

section Updates

variable {w : WriteComponent} {allocated n k : Nat} {freed : List Nat} {t t' : WriteFile}
  {r : Recording}

theorem Isolated.lt_allocated (h : Isolated w allocated freed) (hslot : w.fileT n = some t) :
    n < allocated := by
  rcases Nat.lt_or_ge n allocated with hlt | hge
  · exact hlt
  · rw [h.fresh n hge] at hslot
    cases hslot

theorem Isolated.not_freed (h : Isolated w allocated freed) (hslot : w.fileT n = some t) :
    n ∉ freed := by
  intro hfreed
  rw [(h.released n hfreed).1] at hslot
  cases hslot

theorem Isolated.node_unique (h : Isolated w allocated freed) {m : Nat}
    (hslot : w.fileT n = some t) (hq : t.queue = some k) (hslot' : w.fileT m = some t')
    (hq' : t'.queue = some k) : m = n :=
  (h.current m t' k hslot' hq').2.node.symm.trans (h.current n t k hslot hq).2.node

/-- Node `n` and start command `k` go together in `w`, and `w'` differs from `w`
there only. -/
structure ChangesAt (n k : Nat) (w w' : WriteComponent) : Prop where
  paired : ∀ m t j, w.fileT m = some t → t.queue = some j → (m = n ↔ j = k)
  slots : ∀ m, m ≠ n → w'.fileT m = w.fileT m
  recordings : ∀ j, j ≠ k → w'.recording j = w.recording j
  starts : w.starts ≤ w'.starts
  posted : ∀ m, m.writer ≠ k → (m ∈ w'.posted ↔ m ∈ w.posted)
  once : w'.posted.Nodup

/-- What such a change has to see to. -/
structure SoundAt (n k : Nat) (w : WriteComponent) : Prop where
  current : ∀ t j, w.fileT n = some t → t.queue = some j →
    j = k ∧ k < w.starts ∧ Current n k t (w.recording k)
  enabled : ∀ t, w.fileT n = some t → t.enable = 1 → t.queue.isSome = true
  live : ∀ st, (w.recording k).writer = some st → st.Live →
    ∃ t, w.fileT (w.recording k).node = some t ∧ t.queue = some k
  posted : ∀ m ∈ w.posted, m.writer = k → (w.recording k).writer = some .exited ∧
    ∃ t, w.fileT m.node = some t ∧ t.queue = some k
  announced : (w.recording k).writer = some .exited → (w.recording k).isOpen = true →
    ∃ m ∈ w.posted, m.writer = k
  file : FileKept (w.recording k)

theorem ChangesAt.slot_of_ne {w' : WriteComponent} {m j : Nat} (h : ChangesAt n k w w')
    (hj : j ≠ k) (hslot : w.fileT m = some t) (hq : t.queue = some j) :
    w'.fileT m = some t := by
  rw [h.slots m fun heq => hj ((h.paired m t j hslot hq).mp heq)]
  exact hslot

theorem Isolated.change {w' : WriteComponent} (h : Isolated w allocated freed)
    (hchange : ChangesAt n k w w') (hsound : SoundAt n k w') (hn : n < allocated)
    (hfreed : n ∉ freed) : Isolated w' allocated freed := by
  refine ⟨?_, ?_, ?_, ?_, hchange.once, ?_, ?_, ?_, ?_⟩
  · intro m t₁ j hslot hq
    rcases eq_or_ne m n with rfl | hm
    · obtain ⟨rfl, hlt, hcur⟩ := hsound.current t₁ j hslot hq
      exact ⟨hlt, hcur⟩
    · rw [hchange.slots m hm] at hslot
      have hj : j ≠ k := fun heq => hm ((hchange.paired m t₁ j hslot hq).mpr heq)
      obtain ⟨hlt, hcur⟩ := h.current m t₁ j hslot hq
      rw [hchange.recordings j hj]
      exact ⟨Nat.lt_of_lt_of_le hlt hchange.starts, hcur⟩
  · intro m t₁ hslot
    rcases eq_or_ne m n with rfl | hm
    · exact hsound.enabled t₁ hslot
    · rw [hchange.slots m hm] at hslot
      exact h.enabled m t₁ hslot
  · intro j st hst hlive
    rcases eq_or_ne j k with rfl | hj
    · exact hsound.live st hst hlive
    · rw [hchange.recordings j hj] at hst ⊢
      obtain ⟨t₁, hslot, hq⟩ := h.live j st hst hlive
      exact ⟨t₁, hchange.slot_of_ne hj hslot hq, hq⟩
  · intro m hm
    rcases eq_or_ne m.writer k with hk | hk
    · rw [hk]
      exact hsound.posted m hm hk
    · rw [hchange.recordings _ hk]
      obtain ⟨hexited, t₁, hslot, hq⟩ := h.posted m ((hchange.posted m hk).mp hm)
      exact ⟨hexited, t₁, hchange.slot_of_ne hk hslot hq, hq⟩
  · intro j hexited hopen
    rcases eq_or_ne j k with rfl | hj
    · exact hsound.announced hexited hopen
    · rw [hchange.recordings j hj] at hexited hopen
      obtain ⟨m, hm, rfl⟩ := h.announced j hexited hopen
      exact ⟨m, (hchange.posted m hj).mpr hm, rfl⟩
  · intro j
    rcases eq_or_ne j k with rfl | hj
    · exact hsound.file
    · rw [hchange.recordings j hj]
      exact h.files j
  · intro m hm
    rw [hchange.slots m (by omega)]
    exact h.fresh m hm
  · intro m hm
    rw [hchange.slots m fun heq => hfreed (heq ▸ hm)]
    exact h.released m hm

theorem Isolated.paired (h : Isolated w allocated freed) (hslot : w.fileT n = some t)
    (hq : t.queue = some k) (m : Nat) (t₁ : WriteFile) (j : Nat) (hslot₁ : w.fileT m = some t₁)
    (hq₁ : t₁.queue = some j) : m = n ↔ j = k := by
  constructor
  · rintro rfl
    obtain rfl := Option.some.inj (hslot.symm.trans hslot₁)
    exact Option.some.inj (hq₁.symm.trans hq)
  · rintro rfl
    exact h.node_unique hslot hq hslot₁ hq₁

theorem Isolated.paired_starts (h : Isolated w allocated freed) (hidle : Unqueued w n) (m : Nat)
    (t₁ : WriteFile) (j : Nat) (hslot : w.fileT m = some t₁) (hq : t₁.queue = some j) :
    m = n ↔ j = w.starts := by
  constructor
  · rintro rfl
    rw [hidle t₁ hslot] at hq
    cases hq
  · rintro rfl
    exact absurd (h.current m t₁ _ hslot hq).1 (Nat.lt_irrefl _)

theorem Isolated.update (h : Isolated w allocated freed)
    (hslot : w.fileT n = some t) (hq : t.queue = some k) (hq' : t'.queue = some k)
    (hcur : Current n k t' r)
    (hexit : r.writer = some .exited ↔ (w.recording k).writer = some .exited) :
    Isolated ((w.setRecording k r).setFileT n (some t')) allocated freed := by
  set w' := (w.setRecording k r).setFileT n (some t') with hw'
  have hslot' : w'.fileT n = some t' := by simp [hw']
  have hr : w'.recording k = r := by simp [hw']
  have hchange : ChangesAt n k w w' := by
    refine ⟨h.paired hslot hq, ?_, ?_, Nat.le_refl _, fun _ _ => Iff.rfl, h.once⟩
    · intro m hm
      exact WriteComponent.fileT_setFileT_of_ne _ _ _ hm
    · intro j hj
      exact WriteComponent.recording_setRecording_of_ne _ _ _ hj
  have hsound : SoundAt n k w' := by
    refine ⟨?_, ?_, ?_, ?_, ?_, ?_⟩
    · intro t₁ j hslot₁ hq₁
      obtain rfl := Option.some.inj (hslot'.symm.trans hslot₁)
      obtain rfl := Option.some.inj (hq₁.symm.trans hq')
      rw [hr]
      exact ⟨rfl, (h.current n t j hslot hq).1, hcur⟩
    · intro t₁ hslot₁ _
      obtain rfl := Option.some.inj (hslot'.symm.trans hslot₁)
      simp [hq']
    · intro st _ _
      rw [hr, hcur.node]
      exact ⟨t', hslot', hq'⟩
    · intro m hm hk
      obtain ⟨hexited, t₁, hslot₁, hq₁⟩ := h.posted m hm
      rw [hk] at hexited hq₁
      obtain rfl := h.node_unique hslot hq hslot₁ hq₁
      rw [hr]
      exact ⟨hexit.mpr hexited, t', hslot', hq'⟩
    · intro hexited _
      rw [hr] at hexited
      exact h.announced k (hexit.mp hexited) (h.current n t k hslot hq).2.isOpen
    · rw [hr]
      exact hcur.fileKept
  exact h.change hchange hsound (h.lt_allocated hslot) (h.not_freed hslot)

theorem Isolated.setRecording (h : Isolated w allocated freed)
    (hslot : w.fileT n = some t) (hq : t.queue = some k) (hcur : Current n k t r)
    (hexit : r.writer = some .exited ↔ (w.recording k).writer = some .exited) :
    Isolated (w.setRecording k r) allocated freed := by
  have hupdate := h.update hslot hq hq hcur hexit
  have hself := WriteComponent.setFileT_self (w.setRecording k r) n
  rw [WriteComponent.fileT_setRecording, hslot] at hself
  rwa [hself] at hupdate

theorem Isolated.untouched (h : Isolated w allocated freed) :
    (∀ st, (w.recording w.starts).writer = some st → ¬ st.Live) ∧
      ∀ m ∈ w.posted, m.writer ≠ w.starts := by
  constructor
  · intro st hst hlive
    obtain ⟨t₁, hslot, hq⟩ := h.live _ st hst hlive
    exact Nat.lt_irrefl _ (h.current _ t₁ _ hslot hq).1
  · intro m hm hk
    obtain ⟨-, t₁, hslot, hq⟩ := h.posted m hm
    rw [hk] at hq
    exact Nat.lt_irrefl _ (h.current _ t₁ _ hslot hq).1

theorem Isolated.setUnqueued (h : Isolated w allocated freed) (hidle : Unqueued w n)
    (hn : n < allocated) (hfreed : n ∉ freed) (hq' : t'.queue = none) (henable : t'.enable ≠ 1) :
    Isolated (w.setFileT n (some t')) allocated freed := by
  have hslot' : (w.setFileT n (some t')).fileT n = some t' := by simp
  obtain ⟨hdead, hunposted⟩ := h.untouched
  have hchange : ChangesAt n w.starts w (w.setFileT n (some t')) := by
    refine ⟨h.paired_starts hidle, ?_, fun _ _ => rfl, Nat.le_refl _, fun _ _ => Iff.rfl, h.once⟩
    intro m hm
    exact WriteComponent.fileT_setFileT_of_ne _ _ _ hm
  refine h.change hchange ⟨?_, ?_, ?_, ?_, h.announced _, h.files _⟩ hn hfreed
  · intro t₁ j hslot hq
    obtain rfl := Option.some.inj (hslot'.symm.trans hslot)
    rw [hq'] at hq
    cases hq
  · intro t₁ hslot henabled
    obtain rfl := Option.some.inj (hslot'.symm.trans hslot)
    exact absurd henabled henable
  · exact fun st hst hlive => absurd hlive (hdead st hst)
  · exact fun m hm hk => absurd hk (hunposted m hm)

theorem Isolated.start (h : Isolated w allocated freed) (hidle : Unqueued w n)
    (hn : n < allocated) (hfreed : n ∉ freed) (hkept : FileKept r)
    (hwriter : r.writer ≠ some .exited)
    (hstart : t'.queue = some w.starts ∧ Current n w.starts t' r ∨
      t'.queue = none ∧ t'.enable ≠ 1 ∧ r.writer = none) :
    Isolated ((taken w r).setFileT n (some t')) allocated freed := by
  set w' := (taken w r).setFileT n (some t') with hw'
  have hslot' : w'.fileT n = some t' := by simp [hw']
  have hr : w'.recording w.starts = r := by simp [hw', taken]
  obtain ⟨-, hunposted⟩ := h.untouched
  have hchange : ChangesAt n w.starts w w' := by
    refine ⟨h.paired_starts hidle, ?_, ?_, Nat.le_succ _, fun _ _ => Iff.rfl, h.once⟩
    · intro m hm
      exact WriteComponent.fileT_setFileT_of_ne _ _ _ hm
    · intro j hj
      exact WriteComponent.recording_setRecording_of_ne _ _ _ hj
  refine h.change hchange ⟨?_, ?_, ?_, ?_, ?_, ?_⟩ hn hfreed
  · intro t₁ j hslot hq
    obtain rfl := Option.some.inj (hslot'.symm.trans hslot)
    rcases hstart with ⟨hq', hcur⟩ | ⟨hq', -, -⟩
    · rw [hr]
      exact ⟨Option.some.inj (hq.symm.trans hq'), Nat.lt_succ_self _, hcur⟩
    · rw [hq'] at hq
      cases hq
  · intro t₁ hslot henabled
    obtain rfl := Option.some.inj (hslot'.symm.trans hslot)
    rcases hstart with ⟨hq', -⟩ | ⟨-, henable, -⟩
    · simp [hq']
    · exact absurd henabled henable
  · intro st hst _
    rw [hr] at hst ⊢
    rcases hstart with ⟨hq', hcur⟩ | ⟨-, -, hnone⟩
    · rw [hcur.node]
      exact ⟨t', hslot', hq'⟩
    · rw [hnone] at hst
      cases hst
  · exact fun m hm hk => absurd hk (hunposted m hm)
  · intro hexited _
    rw [hr] at hexited
    exact absurd hexited hwriter
  · rw [hr]
    exact hkept

/-- No two messages are about one start command. -/
theorem Isolated.writer_ne (h : Isolated w allocated freed) {m m' : ClearStatus}
    {ms : List ClearStatus} (hposted : w.posted = m :: ms) (hm' : m' ∈ ms) :
    m'.writer ≠ m.writer := by
  intro heq
  obtain ⟨-, t₁, hslot₁, hq₁⟩ := h.posted m (by simp [hposted])
  obtain ⟨-, t₂, hslot₂, hq₂⟩ := h.posted m' (by simp [hposted, hm'])
  rw [heq] at hq₂
  have hnode := h.node_unique hslot₁ hq₁ hslot₂ hq₂
  have hsame : m' = m := by
    cases m
    cases m'
    simp_all
  have honce := h.once
  rw [hposted] at honce
  exact (List.nodup_cons.mp honce).1 (hsame ▸ hm')

theorem Isolated.clear (h : Isolated w allocated freed) {m : ClearStatus} {ms : List ClearStatus}
    (hposted : w.posted = m :: ms) : Isolated (cleared w m ms) allocated freed := by
  obtain ⟨hexited, t, hslot, hq⟩ := h.posted m (by simp [hposted])
  have hcur := (h.current m.node t m.writer hslot hq).2
  have hslot' : (cleared w m ms).fileT m.node = none := by simp [cleared]
  have hr : (cleared w m ms).recording m.writer =
      { w.recording m.writer with isOpen := false, queue := none } := by simp [cleared]
  have hchange : ChangesAt m.node m.writer w (cleared w m ms) := by
    refine ⟨h.paired hslot hq, ?_, ?_, Nat.le_refl _, ?_, ?_⟩
    · intro n hn
      exact WriteComponent.fileT_setFileT_of_ne _ _ _ hn
    · intro j hj
      exact WriteComponent.recording_setRecording_of_ne _ _ _ hj
    · intro m' hm'
      have hne : m' ≠ m := fun heq => hm' (congrArg ClearStatus.writer heq)
      rw [hposted]
      exact (List.mem_cons.trans (or_iff_right hne)).symm
    · have honce := h.once
      rw [hposted] at honce
      exact (List.nodup_cons.mp honce).2
  refine h.change hchange ⟨?_, ?_, ?_, ?_, ?_, ?_⟩ (h.lt_allocated hslot) (h.not_freed hslot)
  · intro t₁ j hslot₁
    rw [hslot'] at hslot₁
    cases hslot₁
  · intro t₁ hslot₁
    rw [hslot'] at hslot₁
    cases hslot₁
  · intro st hst hlive
    rw [hr] at hst
    exact absurd (Option.some.inj (hst.symm.trans hexited)) hlive
  · exact fun m' hm' hk => absurd hk (h.writer_ne hposted hm')
  · intro _ hopen
    rw [hr] at hopen
    cases hopen
  · rw [hr]
    refine ⟨hcur.accounted.written_prefix, fun _ => ?_⟩
    exact hcur.accounted.written_eq_queued (by simp [drain, hexited, hasStopped])

theorem Isolated.post (h : Isolated w allocated freed) (hslot : w.fileT n = some t)
    (hq : t.queue = some k) (hcur : Current n k t r) (hexited : r.writer = some .exited)
    (hunposted : (w.recording k).writer ≠ some .exited) :
    Isolated (WriteComponent.setRecording { w with posted := w.posted ++ [⟨n, k⟩] } k r)
      allocated freed := by
  set w' := WriteComponent.setRecording { w with posted := w.posted ++ [⟨n, k⟩] } k r with hw'
  have hr : w'.recording k = r := by simp [hw']
  have hfresh : ∀ m ∈ w.posted, m.writer ≠ k := by
    rintro m hm rfl
    exact hunposted (h.posted m hm).1
  have hchange : ChangesAt n k w w' := by
    refine ⟨h.paired hslot hq, fun _ _ => rfl, ?_, Nat.le_refl _, ?_, ?_⟩
    · intro j hj
      exact WriteComponent.recording_setRecording_of_ne _ _ _ hj
    · intro m hm
      have hne : m ≠ ⟨n, k⟩ := fun heq => hm (congrArg ClearStatus.writer heq)
      show m ∈ w.posted ++ [⟨n, k⟩] ↔ m ∈ w.posted
      simp [hne]
    · refine List.nodup_append.mpr ⟨h.once, List.nodup_cons.mpr ⟨by simp, List.nodup_nil⟩, ?_⟩
      rintro m hm m' hm' rfl
      obtain rfl := List.mem_singleton.mp hm'
      exact hfresh _ hm rfl
  refine h.change hchange ⟨?_, ?_, ?_, ?_, ?_, ?_⟩ (h.lt_allocated hslot) (h.not_freed hslot)
  · intro t₁ j hslot₁ hq₁
    obtain rfl := Option.some.inj (hslot.symm.trans hslot₁)
    obtain rfl := Option.some.inj (hq₁.symm.trans hq)
    rw [hr]
    exact ⟨rfl, (h.current n t j hslot hq).1, hcur⟩
  · exact h.enabled n
  · intro st _ _
    rw [hr, hcur.node]
    exact ⟨t, hslot, hq⟩
  · intro m hm hk
    rcases List.mem_append.mp hm with hold | hnew
    · exact absurd hk (hfresh m hold)
    · obtain rfl := List.mem_singleton.mp hnew
      rw [hr]
      exact ⟨hexited, t, hslot, hq⟩
  · exact fun _ _ => ⟨⟨n, k⟩, by simp [hw', WriteComponent.setRecording], rfl⟩
  · rw [hr]
    exact hcur.fileKept

theorem Isolated.free (h : Isolated w allocated freed) (hnone : w.fileT n = none)
    (hn : n < allocated) : Isolated w allocated (n :: freed) := by
  refine ⟨h.current, h.enabled, h.live, h.posted, h.once, h.announced, h.files, h.fresh, ?_⟩
  intro m hm
  rcases List.mem_cons.mp hm with rfl | hold
  · exact ⟨hnone, hn⟩
  · exact h.released m hold

theorem Isolated.allocate (h : Isolated w allocated freed) {allocated' : Nat}
    (hle : allocated ≤ allocated') : Isolated w allocated' freed := by
  refine ⟨h.current, h.enabled, h.live, h.posted, h.once, h.announced, h.files, ?_, ?_⟩
  · exact fun m hm => h.fresh m (Nat.le_trans hle hm)
  · intro m hm
    obtain ⟨hnone, hlt⟩ := h.released m hm
    exact ⟨hnone, Nat.lt_of_lt_of_le hlt hle⟩

end Updates

end GwWeb.WriteIsolation
