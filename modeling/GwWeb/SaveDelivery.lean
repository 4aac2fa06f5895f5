import GwWeb.SlotRuns

/-!
Which of the saving nodes `send_rssi_to_save` and `send_csi_to_save` reach: those
that stand before the first node whose `enable` is 0.
-/

namespace GwWeb.SaveDelivery

open FirstMatch
open TransitionRuns
open GwWeb.WebCommon
open GwWeb.MosquittoBroker
open GwWeb.DmaHandler
open GwWeb.EventProcess
open GwWeb.WriteSlots
open GwWeb.SaveNodes
open GwWeb.SlotRuns
open GwWeb.SaveIsolation

/-- `enable` of a node's slot. -/
def enableOf (w : WriteComponent) (n : Nat) : Option Int := (w.fileT n).map WriteFile.enable

/-- Node `n` is saving, and `k` is its queue. -/
def SavesTo (w : WriteComponent) (n k : Nat) : Prop :=
  ∃ t, w.fileT n = some t ∧ t.enable = 1 ∧ t.queue = some k

/-- The listed nodes are distinct, and a saving one has a queue of its own. -/
structure OwnQueues (nodes : List Nat) (w : WriteComponent) : Prop where
  distinct : nodes.Nodup
  queue : ∀ n ∈ nodes, ∀ t, w.fileT n = some t → t.enable = 1 →
    ∃ k items, t.queue = some k ∧ (w.recording k).queue = some items
  own : ∀ m ∈ nodes, ∀ n ∈ nodes, ∀ k, SavesTo w m k → SavesTo w n k → m = n

/-- The queue of each saving node gets the record at its end, no other queue
changes. -/
structure AppendsOnce (nodes : List Nat) (buf : List UInt8) (w w' : WriteComponent) : Prop where
  saving : ∀ n ∈ nodes, ∀ k, SavesTo w n k → ∃ items,
    (w.recording k).queue = some items ∧ (w'.recording k).queue = some (items ++ [QueueItem.mk buf])
  others : ∀ k, (∀ n ∈ nodes, ¬ SavesTo w n k) → (w'.recording k).queue = (w.recording k).queue

/-- No saving node stands behind a node whose `enable` is 0. -/
def Unobstructed (nodes : List Nat) (w : WriteComponent) : Prop :=
  nodes.Pairwise fun m n => enableOf w m = some 0 → enableOf w n ≠ some 1

instance (nodes : List Nat) (w : WriteComponent) : Decidable (Unobstructed nodes w) :=
  inferInstanceAs (Decidable (List.Pairwise _ _))

/-- No `write_file_t`, or one whose `enable` is 0 or 1. -/
def Ordinary (w : WriteComponent) (n : Nat) : Prop :=
  enableOf w n = none ∨ enableOf w n = some 0 ∨ enableOf w n = some 1

instance (w : WriteComponent) (n : Nat) : Decidable (Ordinary w n) :=
  inferInstanceAs (Decidable (_ ∨ _ ∨ _))

/-- The nodes before the first one whose `enable` is 0. -/
def reached (nodes : List Nat) (w : WriteComponent) : List Nat :=
  nodes.takeWhile fun n => !decide (enableOf w n = some 0)

variable {w w' : WriteComponent} {n k : Nat} {nodes : List Nat} {t : WriteFile}
  {buf : List UInt8}

theorem enableOf_eq_some_one (hsaves : SavesTo w n k) : enableOf w n = some 1 := by
  obtain ⟨t, hslot, henable, -⟩ := hsaves
  simp [enableOf, hslot, henable]

theorem savesTo_iff (hslot : w.fileT n = some t) :
    SavesTo w n k ↔ t.enable = 1 ∧ t.queue = some k := by
  simp [SavesTo, hslot]

theorem savesTo_congr (hfileT : w'.fileT = w.fileT) : SavesTo w' n k ↔ SavesTo w n k := by
  unfold SavesTo
  rw [hfileT]

theorem enableOf_congr (hfileT : w'.fileT = w.fileT) : enableOf w' = enableOf w := by
  funext n
  simp only [enableOf, hfileT]

theorem ordinary_congr (hfileT : w'.fileT = w.fileT) : Ordinary w' n ↔ Ordinary w n := by
  unfold Ordinary
  rw [enableOf_congr hfileT]

theorem Ordinary.enable (h : Ordinary w n) (hslot : w.fileT n = some t) :
    t.enable = 0 ∨ t.enable = 1 := by
  simpa [Ordinary, enableOf, hslot] using h

theorem reached_congr (hfileT : w'.fileT = w.fileT) : reached nodes w' = reached nodes w := by
  unfold reached
  rw [enableOf_congr hfileT]

theorem mem_of_mem_reached (hn : n ∈ reached nodes w) : n ∈ nodes :=
  (List.takeWhile_prefix _).subset hn

theorem ne_append_singleton {items : List QueueItem} (item : QueueItem) :
    items ≠ items ++ [item] := by
  simp

theorem OwnQueues.tail (h : OwnQueues (n :: nodes) w) : OwnQueues nodes w where
  distinct := (List.nodup_cons.mp h.distinct).2
  queue := fun m hm => h.queue m (List.mem_cons_of_mem _ hm)
  own := fun m hm m' hm' =>
    h.own m (List.mem_cons_of_mem _ hm) m' (List.mem_cons_of_mem _ hm')

theorem ownQueues_of_slotted {allocated : Nat} (h : Slotted w allocated)
    (hdistinct : nodes.Nodup) : OwnQueues nodes w where
  distinct := hdistinct
  queue := by
    intro n _ t hslot henable
    obtain ⟨k, hk⟩ := Option.isSome_iff_exists.mp (h.enabled n t hslot henable)
    obtain ⟨items, hitems⟩ := Option.isSome_iff_exists.mp (h.queue n t k hslot hk).2.2
    exact ⟨k, items, hk, hitems⟩
  own := by
    rintro m - n - k ⟨t, hslot, -, hk⟩ ⟨t', hslot', -, hk'⟩
    exact (h.queue m t k hslot hk).2.1.symm.trans (h.queue n t' k hslot' hk').2.1

theorem queueRecord_appends (buf : List UInt8) {items : List QueueItem} (hqueue : t.queue = some k)
    (hitems : (w.recording k).queue = some items) :
    ∃ w', queueRecord t buf true w = .ok w' ∧ w'.fileT = w.fileT ∧
      (w'.recording k).queue = some (items ++ [QueueItem.mk buf]) ∧
      ∀ j, j ≠ k → w'.recording j = w.recording j := by
  refine ⟨w.setRecording k { w.recording k with
    queue := some (items ++ [QueueItem.mk buf]), queued := (w.recording k).queued ++ [buf] },
    ?_, rfl, ?_, fun j hj => ?_⟩
  · simp [queueRecord, tinyQueuePush, hqueue, hitems, bind, Except.bind, pure, Except.pure]
  · simp
  · exact WriteComponent.recording_setRecording_of_ne _ _ _ hj

theorem AppendsOnce.cons {w₁ : WriteComponent} {items : List QueueItem}
    (hown : OwnQueues (n :: nodes) w) (hsaves : SavesTo w n k)
    (hitems : (w.recording k).queue = some items) (hfileT : w₁.fileT = w.fileT)
    (happended : (w₁.recording k).queue = some (items ++ [QueueItem.mk buf]))
    (hothers : ∀ j, j ≠ k → w₁.recording j = w.recording j) {rest : List Nat}
    (hrest : ∀ m ∈ rest, m ∈ nodes) (h : AppendsOnce rest buf w₁ w') :
    AppendsOnce (n :: rest) buf w w' := by
  have hnode : ∀ m ∈ rest, ¬ SavesTo w m k := by
    intro m hm hsaves'
    have hmem := hrest m hm
    have heq := hown.own m (List.mem_cons_of_mem _ hmem) n List.mem_cons_self k hsaves' hsaves
    exact (List.nodup_cons.mp hown.distinct).1 (heq ▸ hmem)
  constructor
  · intro m hm j hj
    rcases List.mem_cons.mp hm with rfl | hm
    · have hjk : j = k := by
        obtain ⟨t, hslot, -, hk⟩ := hsaves
        exact Option.some.inj (((savesTo_iff hslot).mp hj).2.symm.trans hk)
      subst hjk
      refine ⟨items, hitems, ?_⟩
      rw [h.others j fun m hm hsaves' => hnode m hm ((savesTo_congr hfileT).mp hsaves'), happended]
    · have hjk : j ≠ k := by
        rintro rfl
        exact hnode m hm hj
      obtain ⟨items', hitems', hpushed⟩ := h.saving m hm j ((savesTo_congr hfileT).mpr hj)
      exact ⟨items', hothers j hjk ▸ hitems', hpushed⟩
  · intro j hj
    have hjk : j ≠ k := by
      rintro rfl
      exact hj n List.mem_cons_self hsaves
    rw [h.others j fun m hm hsaves' =>
      hj m (List.mem_cons_of_mem _ hm) ((savesTo_congr hfileT).mp hsaves'), hothers j hjk]

theorem AppendsOnce.skip (hidle : ∀ k, ¬ SavesTo w n k) (h : AppendsOnce nodes buf w w') :
    AppendsOnce (n :: nodes) buf w w' where
  saving := by
    intro m hm k hk
    rcases List.mem_cons.mp hm with rfl | hm
    · exact absurd hk (hidle k)
    · exact h.saving m hm k hk
  others := fun k hk => h.others k fun m hm => hk m (List.mem_cons_of_mem _ hm)

/-- The loop, by induction on the nodes: it serves those it comes to. -/
theorem sendToSave_reached (buf : List UInt8) (knowsTwo : Bool) {r : SaveReplies}
    (hown : OwnQueues nodes w)
    (hstate : ∀ n ∈ nodes, Ordinary w n)
    (hpush : ∀ n ∈ nodes, r.tinyQueuePush n = true) :
    ∃ w', sendToSave (.ok buf) knowsTwo r nodes w = .ok w' ∧
      AppendsOnce (reached nodes w) buf w w' := by
  induction nodes generalizing w with
  | nil => exact ⟨w, rfl, by simp [reached], fun _ _ => rfl⟩
  | cons n nodes ih =>
      have hstate' : ∀ m ∈ nodes, Ordinary w m :=
        fun m hm => hstate m (List.mem_cons_of_mem _ hm)
      have hpush' : ∀ m ∈ nodes, r.tinyQueuePush m = true :=
        fun m hm => hpush m (List.mem_cons_of_mem _ hm)
      cases hslot : w.fileT n with
      | none =>
          obtain ⟨w', hok, happends⟩ := ih hown.tail hstate' hpush'
          refine ⟨w', by simp only [sendToSave, hslot, hok], ?_⟩
          have hgoes : enableOf w n ≠ some 0 := by simp [enableOf, hslot]
          rw [reached, List.takeWhile_cons_of_pos (by simp [hgoes])]
          exact happends.skip fun k hk => by simp [SavesTo, hslot] at hk
      | some t =>
          rcases (hstate n List.mem_cons_self).enable hslot with hzero | hone
          · refine ⟨w, by simp only [sendToSave, hslot, hzero, if_true], ?_⟩
            have hstops : enableOf w n = some 0 := by simp [enableOf, hslot, hzero]
            rw [reached, List.takeWhile_cons_of_neg (by simp [hstops])]
            exact ⟨by simp, fun _ _ => rfl⟩
          · obtain ⟨k, items, hk, hitems⟩ := hown.queue n List.mem_cons_self t hslot hone
            obtain ⟨w₁, hqueue, hfileT, happended, hothers⟩ := queueRecord_appends buf hk hitems
            have hown₁ : OwnQueues nodes w₁ := by
              refine ⟨hown.tail.distinct, fun m hm t' hslot' henable => ?_, fun m hm m' hm' j => ?_⟩
              · rw [hfileT] at hslot'
                obtain ⟨j, items', hj, hitems'⟩ := hown.tail.queue m hm t' hslot' henable
                rcases eq_or_ne j k with rfl | hjk
                · exact ⟨j, _, hj, happended⟩
                · exact ⟨j, items', hj, by rw [hothers j hjk, hitems']⟩
              · rw [savesTo_congr hfileT, savesTo_congr hfileT]
                exact hown.tail.own m hm m' hm' j
            have hordinary := fun m hm => (ordinary_congr hfileT).mpr (hstate' m hm)
            obtain ⟨w', hok, happends⟩ := ih hown₁ hordinary hpush'
            refine ⟨w', ?_, ?_⟩
            · simp only [sendToSave, hslot, hone, hpush n List.mem_cons_self]
              simpa [bind, Except.bind, hqueue] using hok
            · have hgoes : enableOf w n ≠ some 0 := by simp [enableOf, hslot, hone]
              rw [reached, List.takeWhile_cons_of_pos (by simp [hgoes])]
              refine .cons hown ⟨t, hslot, hone, hk⟩ hitems hfileT happended hothers
                (fun m hm => mem_of_mem_reached hm) ?_
              rw [reached_congr hfileT] at happends
              exact happends

theorem unobstructed_iff (hdistinct : nodes.Nodup) :
    Unobstructed nodes w ↔ ∀ n ∈ nodes, enableOf w n = some 1 → n ∈ reached nodes w := by
  have hiff := pairwise_iff_mem_takeWhile (p := fun n => decide (enableOf w n = some 0))
    (q := fun n => decide (enableOf w n = some 1)) hdistinct
    (fun n hn => by simp [of_decide_eq_true hn])
  simp only [decide_eq_true_eq, decide_eq_false_iff_not] at hiff
  exact hiff

/-- Serving the nodes the loop comes to is serving all of them, unless a saving
one is left out. -/
theorem appendsOnce_iff_unobstructed (hown : OwnQueues nodes w)
    (h : AppendsOnce (reached nodes w) buf w w') :
    AppendsOnce nodes buf w w' ↔ Unobstructed nodes w := by
  rw [unobstructed_iff hown.distinct]
  constructor
  · intro hall n hn henable
    by_contra hleft
    obtain ⟨t, hslot, hone⟩ := Option.map_eq_some_iff.mp henable
    obtain ⟨k, items, hk, hitems⟩ := hown.queue n hn t hslot hone
    have hsaves : SavesTo w n k := ⟨t, hslot, hone, hk⟩
    obtain ⟨items', hitems', hpushed⟩ := hall.saving n hn k hsaves
    have hsame := h.others k fun m hm hsaves' =>
      hleft (hown.own m (mem_of_mem_reached hm) n hn k hsaves' hsaves ▸ hm)
    rw [hsame, hitems'] at hpushed
    exact ne_append_singleton _ (Option.some.inj hpushed)
  · intro hreached
    refine ⟨fun n hn k hk => ?_, fun k hk => ?_⟩
    · exact h.saving n (hreached n hn (enableOf_eq_some_one hk)) k hk
    · exact h.others k fun n hn => hk n (mem_of_mem_reached hn)

theorem rssiRecord_ok {msg : RssiPriv} (hnonneg : 0 ≤ msg.rssiBufLen)
    (hle : msg.rssiBufLen ≤ 60000) : ∃ buf, rssiRecord msg = .ok buf :=
  ⟨_, if_pos ⟨hnonneg, by omega⟩⟩

/-- With every push a success, both loops serve all saving nodes exactly if no
such node stands behind one whose `enable` is 0. -/
theorem appends_once_iff (r : SaveReplies) :
    (∀ (msg : RssiPriv) (g : GBrokerPara),
      0 ≤ msg.rssiBufLen → msg.rssiBufLen ≤ 60000 →
      OwnQueues (g.rssiUserNodeHead.map UserNode.addr) g.save →
      (∀ n ∈ g.rssiUserNodeHead, Ordinary g.save n.addr) →
      (∀ n ∈ g.rssiUserNodeHead, r.tinyQueuePush n.addr = true) →
      ∃ buf g', rssiRecord msg = .ok buf ∧ sendRssiToSave msg r g = .ok g' ∧
        (AppendsOnce (g.rssiUserNodeHead.map UserNode.addr) buf g.save g'.save ↔
          Unobstructed (g.rssiUserNodeHead.map UserNode.addr) g.save)) ∧
    (∀ g : GDmaPara,
      OwnQueues (g.csiSaveUserNodeHead.map UserNode.addr) g.save →
      (∀ n ∈ g.csiSaveUserNodeHead, Ordinary g.save n.addr) →
      (∀ n ∈ g.csiSaveUserNodeHead, r.tinyQueuePush n.addr = true) →
      ∃ g', sendCsiToSave r g = .ok g' ∧
        (AppendsOnce (g.csiSaveUserNodeHead.map UserNode.addr) g.csiSpectrumBuf g.save g'.save ↔
          Unobstructed (g.csiSaveUserNodeHead.map UserNode.addr) g.save)) := by
  constructor
  · intro msg g hnonneg hle hown hstate hpush
    obtain ⟨buf, hbuf⟩ := rssiRecord_ok hnonneg hle
    obtain ⟨save, hsave, happends⟩ := sendToSave_reached buf true hown
      (List.forall_mem_map.mpr hstate) (List.forall_mem_map.mpr hpush)
    refine ⟨buf, { g with save }, hbuf, ?_, appendsOnce_iff_unobstructed hown happends⟩
    simp only [sendRssiToSave, hbuf, hsave]
    rfl
  · intro g hown hstate hpush
    obtain ⟨save, hsave, happends⟩ := sendToSave_reached g.csiSpectrumBuf false hown
      (List.forall_mem_map.mpr hstate) (List.forall_mem_map.mpr hpush)
    refine ⟨{ g with save }, ?_, appendsOnce_iff_unobstructed hown happends⟩
    simp only [sendCsiToSave, hsave]
    rfl

theorem ownQueues_reached {trs : List (Transition State Label)} {s₀ s : State} (hs : Started s₀)
    (h : Run Step s₀ trs s) :
    OwnQueues (s.broker.rssiUserNodeHead.map UserNode.addr) s.broker.save ∧
      OwnQueues (s.dma.csiSaveUserNodeHead.map UserNode.addr) s.dma.save := by
  have hslots := slots_reached hs h
  exact ⟨ownQueues_of_slotted hslots.rssi.save hslots.rssi.linked.addrs,
    ownQueues_of_slotted hslots.csi.save hslots.csi.linked.addrs⟩

/-- Connection 7 records both kinds of data, connection 8 stops what it never
started. -/
def recordFirst : List Label :=
  [⟨.acceptNewUser 7, .success⟩, ⟨.acceptNewUser 8, .success⟩, ⟨.inquiryRssi 7, .success⟩,
    ⟨.inquiryRssi 8, .success⟩, ⟨.controlRssi 7 (saveRequest 43 1 "a"), .success⟩,
    ⟨.controlSaveIqData 7 (saveRequest 53 1 "b"), .success⟩,
    ⟨.controlRssi 8 (saveRequest 43 0 ""), .success⟩]

def sample : RssiPriv := { tvSec := 1, tvUsec := 2, rssiBufLen := 0, rssiBuf := fun _ => 0 }

theorem appends_once_record_first :
    ∃ trs s buf g g', replay survive (startState ⟨"dev", "1"⟩ ⟨"dev", "0"⟩) recordFirst =
        some (trs, s) ∧
      SavesTo s.broker.save 0 0 ∧ SavesTo s.dma.save 0 0 ∧
      rssiRecord sample = .ok buf ∧ sendRssiToSave sample Replies.success.save s.broker = .ok g ∧
      AppendsOnce (s.broker.rssiUserNodeHead.map UserNode.addr) buf s.broker.save g.save ∧
      sendCsiToSave Replies.success.save s.dma = .ok g' ∧
      AppendsOnce (s.dma.csiSaveUserNodeHead.map UserNode.addr) s.dma.csiSpectrumBuf s.dma.save
        g'.save := by
  obtain ⟨trs, s, hs, hrssi, hcsi, hstate, hstate', hfree, hfree'⟩ :
      ∃ trs s, replay survive (startState ⟨"dev", "1"⟩ ⟨"dev", "0"⟩) recordFirst =
          some (trs, s) ∧
        SavesTo s.broker.save 0 0 ∧ SavesTo s.dma.save 0 0 ∧
        (∀ n ∈ s.broker.rssiUserNodeHead, Ordinary s.broker.save n.addr) ∧
        (∀ n ∈ s.dma.csiSaveUserNodeHead, Ordinary s.dma.save n.addr) ∧
        Unobstructed (s.broker.rssiUserNodeHead.map UserNode.addr) s.broker.save ∧
        Unobstructed (s.dma.csiSaveUserNodeHead.map UserNode.addr) s.dma.save :=
    ⟨_, _, rfl, ⟨_, rfl, rfl, rfl⟩, ⟨_, rfl, rfl, rfl⟩, by decide, by decide, by decide, by decide⟩
  have hrun := run_of_replay step_of_survive hs
  obtain ⟨hown, hown'⟩ := ownQueues_reached (startState_started _ _) hrun
  obtain ⟨buf, g, hbuf, hsend, hiff⟩ := (appends_once_iff Replies.success.save).1 sample s.broker
    (by decide) (by decide) hown hstate fun _ _ => rfl
  obtain ⟨g', hsend', hiff'⟩ := (appends_once_iff Replies.success.save).2 s.dma hown' hstate'
    fun _ _ => rfl
  exact ⟨trs, s, buf, g, g', hs, hrssi, hcsi, hbuf, hsend, hiff.mpr hfree, hsend',
    hiff'.mpr hfree'⟩

/-- The same with the two connections in the other order. -/
def recordSecond : List Label :=
  [⟨.acceptNewUser 7, .success⟩, ⟨.acceptNewUser 8, .success⟩, ⟨.inquiryRssi 7, .success⟩,
    ⟨.inquiryRssi 8, .success⟩, ⟨.controlRssi 7 (saveRequest 43 0 ""), .success⟩,
    ⟨.controlRssi 8 (saveRequest 43 1 "a"), .success⟩]

/-- Then the loop ends at the node of connection 7, and the sample is missing in
the recording of connection 8. -/
theorem idle_node_ends_loop :
    ∃ trs s g, Run Step (startState ⟨"dev", "1"⟩ ⟨"dev", "0"⟩) trs s ∧
      trs.map (fun tr => tr.label) = recordSecond ∧
      (∀ n ∈ s.broker.rssiUserNodeHead, Ordinary s.broker.save n.addr) ∧
      s.broker.rssiUserNodeHead = [⟨0, 7⟩, ⟨1, 8⟩] ∧ SavesTo s.broker.save 1 0 ∧
      sendRssiToSave sample Replies.success.save s.broker = .ok g ∧
      (s.broker.save.recording 0).queue = some [] ∧ (g.save.recording 0).queue = some [] ∧
      ∀ buf, ¬ AppendsOnce (s.broker.rssiUserNodeHead.map UserNode.addr) buf s.broker.save
        g.save := by
  obtain ⟨trs, s, g, hs, hlabels, hstate, hnodes, hsaves, hsend, hqueue, hqueue'⟩ :
      ∃ trs s g, replay survive (startState ⟨"dev", "1"⟩ ⟨"dev", "0"⟩) recordSecond =
          some (trs, s) ∧
        trs.map (fun tr => tr.label) = recordSecond ∧
        (∀ n ∈ s.broker.rssiUserNodeHead, Ordinary s.broker.save n.addr) ∧
        s.broker.rssiUserNodeHead = [⟨0, 7⟩, ⟨1, 8⟩] ∧ SavesTo s.broker.save 1 0 ∧
        sendRssiToSave sample Replies.success.save s.broker = .ok g ∧
        (s.broker.save.recording 0).queue = some [] ∧ (g.save.recording 0).queue = some [] :=
    ⟨_, _, _, rfl, rfl, by decide, rfl, ⟨_, rfl, rfl, rfl⟩, rfl, rfl, rfl⟩
  refine ⟨trs, s, g, run_of_replay step_of_survive hs, hlabels, hstate, hnodes, hsaves, hsend,
    hqueue, hqueue', fun buf h => ?_⟩
  obtain ⟨items, -, hpushed⟩ := h.saving 1 (by simp [hnodes]) 0 hsaves
  rw [hqueue'] at hpushed
  exact absurd (Option.some.inj hpushed) (by simp)

end GwWeb.SaveDelivery
