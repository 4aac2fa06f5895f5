import GwWeb.NodeFrames
import GwWeb.SlotRuns

/-!
An RSSI node that is unlinked while it has a `write_file_t` is freed behind its
write thread.
-/

namespace GwWeb.DeferredDeletion

open TransitionRuns
open FirstMatch
open GwWeb.WebCommon
open GwWeb.Server
open GwWeb.MosquittoBroker
open GwWeb.EventProcess
open GwWeb.WriteSlots
open GwWeb.WriteThreads
open GwWeb.NodeFrames
open GwWeb.SaveIsolation
open GwWeb.SlottedNodes
open GwWeb.SlotRuns

/-- A marked node that is not freed has one write thread, which was told to end,
or one message, and the message frees it. No node is freed twice, and the
assertion of `close_rssi_state_external` does not fail. -/
structure DeletionSound (g : GBrokerPara) : Prop where
  attended : ∀ a, g.confirmDelete a = 1 → a ∉ g.freed →
    Attended a g.save ∧ ∃ g', clearRssiWriteStatus a g = .ok g' ∧ a ∈ g'.freed
  once : g.freed.Nodup
  asserted : ∀ connfd reply, closeRssiStateExternal connfd reply g ≠ .error .assertion

/-- If the node of a session that goes has a `write_file_t`, it has one write
thread or message, and the thread was told to end or is told now. -/
def LeavesAttended (connfd : Int) (r : Replies) (s : State) : Prop :=
  ∀ n u, findUserNodeByConnfd connfd s.server = some n → n.recordAction.enableRssi ≠ 0 →
    findNode connfd s.broker = some u → s.broker.save.fileT u.addr ≠ none →
    Ready (n.recordAction.enableRssiSave ≠ 0 ∧ r.save.tinyQueuePush u.addr = true) u.addr
      s.broker.save

/-- The condition on one event. -/
def KeepsAttended (s : State) (l : Label) : Prop :=
  match l.event with
  | .delDisconnectUser connfd => LeavesAttended connfd l.replies s
  | .openwrtConnected =>
      s.server.openwrtLink ≠ 0 → l.replies.eventfdWrite = -1 →
        LeavesAttended s.server.openwrtConnfd l.replies s
  | _ => True

section Steps

variable {s s' : State} {l : Label} {r : Replies} {connfd : Int} {g g' : GBrokerPara} {a : Nat}

/-- What the deferred deletion keeps. -/
structure Deferred (g : GBrokerPara) : Prop where
  once : g.freed.Nodup
  attended : ∀ a, g.confirmDelete a = 1 → a ∉ g.freed → Attended a g.save

theorem controlRssiState_asserted (buf : ControlJson) (reply : TransferReply) :
    controlRssiState buf reply g ≠ .error .assertion := by
  unfold controlRssiState
  dsimp only
  split
  · split <;> simp
  · simp

theorem closeRssiStateExternal_asserted (h : RssiSlotted g) (connfd : Int)
    (reply : TransferReply) : closeRssiStateExternal connfd reply g ≠ .error .assertion := by
  intro hfault
  rcases bind_eq_error.mp hfault with hunlink | ⟨g₁, -, hcontrol⟩
  · unfold unlinkRssiUserNode releaseNode at hunlink
    dsimp only at hunlink
    split at hunlink
    · cases hunlink
    · rename_i n hn
      rw [if_pos (h.unmarked n (unlinkLoop_cursor_mem hn))] at hunlink
      split at hunlink <;> cases hunlink
  · split at hcontrol
    · rcases bind_eq_error.mp hcontrol with hstate | ⟨out, -, hdone⟩
      · exact controlRssiState_asserted _ _ hstate
      · cases hdone
    · cases hcontrol

theorem deletionSound_of_deferred (h : RssiSlotted g) (hd : Deferred g) : DeletionSound g where
  attended := by
    intro a hmarked hfreed
    have hattended := hd.attended a hmarked hfreed
    obtain ⟨t, hslot, hfile, hqueue⟩ := hattended.slot
    obtain ⟨w, hclear⟩ := clearWriteStatus_isOk h.save hfreed hslot hfile hqueue
    refine ⟨hattended, ?_⟩
    simp only [clearRssiWriteStatus, hclear, bind, Except.bind, hmarked, if_true]
    exact ⟨_, rfl, List.mem_cons_self⟩
  once := hd.once
  asserted := closeRssiStateExternal_asserted h

theorem Deferred.of_untouched (h : RssiSlotted g) (hd : Deferred g)
    (hfreed : g'.freed = g.freed) (hmarks : ∀ a, g'.confirmDelete a = 1 → g.confirmDelete a = 1)
    (huntouched : ∀ a, g.confirmDelete a = 1 → Untouched a g.save g'.save) : Deferred g' where
  once := hfreed ▸ hd.once
  attended := by
    intro a hmarked hlive
    have hold := hmarks a hmarked
    exact (huntouched a hold).attended h.save (hd.attended a hold (hfreed ▸ hlive))

theorem deferred_inquiryRssi {ret : Int} {reply : TransferReply} (h : RssiSlotted g)
    (hd : Deferred g) (hok : openRssiStateExternal connfd reply g = .ok (ret, g')) :
    Deferred g' := by
  obtain ⟨-, hsave, hfreed, hnodes⟩ := openRssiStateExternal_nodes h hok
  refine hd.of_untouched h hfreed (fun a hmarked => ?_) fun a _ => hsave ▸ .refl h.save a
  rcases hnodes with ⟨-, hmarks⟩ | ⟨-, hmarks⟩
  · rwa [hmarks] at hmarked
  · rw [hmarks] at hmarked
    rcases eq_or_ne a g.allocated with rfl | hne
    · simp at hmarked
    · rwa [Function.update_of_ne hne] at hmarked

theorem deferred_sendRssiToSave {msg : RssiPriv} {reply : SaveReplies} (h : RssiSlotted g)
    (hd : Deferred g) (hok : sendRssiToSave msg reply g = .ok g') : Deferred g' := by
  obtain ⟨save, hsend, hok⟩ := bind_eq_ok.mp hok
  obtain rfl := Except.ok.inj hok
  refine hd.of_untouched h rfl (fun _ hmarked => hmarked) fun a hmarked => ?_
  apply untouched_sendToSave h.save _ hsend
  intro hmem
  obtain ⟨n, hn, heq⟩ := List.mem_map.mp hmem
  exact h.ne_of_marked hmarked n hn heq

theorem deferred_controlRssi {ret : Int} {root : CJson} {reply : SaveReplies} (h : RssiSlotted g)
    (hd : Deferred g) (hok : processRssiSaveFile connfd root reply g = .ok (ret, g')) :
    Deferred g' := by
  obtain ⟨type, -, hok⟩ := bind_eq_ok.mp hok
  split at hok
  · obtain ⟨-, rfl⟩ := Prod.mk.inj (Except.ok.inj hok)
    exact hd
  · split at hok
    · obtain ⟨-, rfl⟩ := Prod.mk.inj (Except.ok.inj hok)
      exact hd
    · rename_i n hn
      obtain ⟨out, hcommand, hok⟩ := bind_eq_ok.mp hok
      obtain ⟨-, rfl⟩ := Prod.mk.inj (Except.ok.inj hok)
      refine hd.of_untouched h rfl (fun _ hmarked => hmarked) fun a hmarked => ?_
      have hne : n.addr ≠ a := h.ne_of_marked hmarked n (List.mem_of_find?_eq_some hn)
      split at hcommand
      · rename_i hnone
        have hfresh : Slotted (g.save.setFileT n.addr (some .fresh)) g.allocated :=
          h.save.setFileT (h.found hn).1 (by simp [WriteFile.fresh]) (by simp [WriteFile.fresh])
            (by simp [WriteFile.fresh])
        have hslot : Untouched a g.save (g.save.setFileT n.addr (some .fresh)) :=
          ⟨WriteComponent.fileT_setFileT_of_ne _ _ _ hne.symm, fun _ _ _ => rfl,
            fun _ hnode hbusy => ⟨h.save.lt_starts hbusy, hnode⟩, rfl⟩
        exact hslot.trans (untouched_saveCommand hfresh hne hcommand) (Nat.le_refl _)
      · exact untouched_saveCommand h.save hne hcommand

theorem deferred_clearRssi {m : ClearStatus} {ms : List ClearStatus} (h : RssiSlotted g)
    (hd : Deferred g) (hposted : g.save.posted = m :: ms)
    (hok : clearRssiWriteStatus m.node { g with save := { g.save with posted := ms } } = .ok g') :
    Deferred g' := by
  obtain ⟨-, hfreed, htakes, hg'⟩ := clearRssiWriteStatus_slots h hok
  rw [hg']
  constructor
  · dsimp only
    split
    · exact List.nodup_cons.mpr ⟨hfreed, hd.once⟩
    · exact hd.once
  · intro a hmarked hlive
    dsimp only at hmarked hlive ⊢
    have hne : m.node ≠ a := by
      rintro rfl
      rw [if_pos hmarked] at hlive
      exact hlive List.mem_cons_self
    have hold : a ∉ g.freed := by
      split at hlive
      · exact fun hmem => hlive (List.mem_cons_of_mem _ hmem)
      · exact hlive
    exact (untouched_takesAway h.save hposted hne htakes).attended h.save
      (hd.attended a hmarked hold)

theorem deferred_rssiWriteThread {k : Nat} (h : RssiSlotted g) (hd : Deferred g)
    (hok : rssiWriteThread k g = .ok g') : Deferred g' := by
  obtain ⟨save, hstep, hok⟩ := bind_eq_ok.mp hok
  obtain rfl := Except.ok.inj hok
  exact ⟨hd.once, fun a hmarked hlive =>
    (hd.attended a hmarked hlive).writeThread h.save hstep⟩

theorem deferred_gone {n : UserSessionNode} (h : RssiSlotted s.broker) (hd : Deferred s.broker)
    (hgone : Gone connfd n r s s') : Deferred s'.broker ↔ LeavesAttended connfd r s := by
  have hbroker := hgone.broker
  -- the terminator goes to the queue of the node that is unlinked
  have huntouched : ∀ a, s.broker.confirmDelete a = 1 →
      Untouched a s.broker.save s'.broker.save := by
    intro a hmarked
    rcases hbroker.save with ⟨-, hsame⟩ | ⟨-, u, hu, hinform⟩
    · exact hsame ▸ .refl h.save a
    · exact untouched_informStop h.save
        (h.ne_of_marked hmarked u (List.mem_of_find?_eq_some hu)) hinform
  have hready : ∀ u, findNode connfd s.broker = some u →
      (Attended u.addr s'.broker.save ↔ Ready (n.recordAction.enableRssiSave ≠ 0 ∧
        r.save.tinyQueuePush u.addr = true) u.addr s.broker.save) := by
    intro u hu
    rcases hbroker.save with ⟨hflag, hsame⟩ | ⟨hflag, u', hu', hinform⟩
    · have hzero : n.recordAction.enableRssiSave = 0 := by
        refine hflag.resolve_right fun hnone => ?_
        rw [hnone] at hu
        cases hu
      rw [hsame, hzero, ← ready_iff_attended]
      simp
    · obtain rfl := Option.some.inj (hu.symm.trans hu')
      rw [attended_informStop_iff hinform]
      simp [hflag]
  rcases hbroker.node with ⟨hflag, -, hfreed, hmarks⟩ | ⟨hflag, u, hu, hreleased⟩
  · refine ⟨fun _ n' u' hn' hflag' => ?_,
      fun _ => hd.of_untouched h hfreed (fun a hmarked => hmarks ▸ hmarked) huntouched⟩
    obtain rfl := Option.some.inj (hgone.found.symm.trans hn')
    exact absurd hflag hflag'
  have hlinked := h.found hu
  -- what the node's slot is, it is in both states
  have hslot : s'.broker.save.fileT u.addr = none ↔ s.broker.save.fileT u.addr = none := by
    rcases hbroker.quiet.slots u.addr with heq | ⟨t, hold, hnew⟩
    · rw [heq]
    · simp [hold, hnew]
  rcases hreleased.node with ⟨hnone, hfreed, hmarks⟩ | ⟨hsome, hfreed, hmarks⟩
  · refine ⟨fun _ n' u' _ _ hu' hslot' => ?_, fun _ => ⟨?_, fun a hmarked hlive => ?_⟩⟩
    · obtain rfl := Option.some.inj (hu.symm.trans hu')
      exact absurd (hslot.mp hnone) hslot'
    · rw [hfreed]
      exact List.nodup_cons.mpr ⟨hlinked.2, hd.once⟩
    · rw [hmarks] at hmarked
      rw [hfreed] at hlive
      exact (huntouched a hmarked).attended h.save
        (hd.attended a hmarked fun hmem => hlive (List.mem_cons_of_mem _ hmem))
  · constructor
    · intro hdeferred n' u' hn' _ hu' _
      obtain rfl := Option.some.inj (hgone.found.symm.trans hn')
      obtain rfl := Option.some.inj (hu.symm.trans hu')
      refine (hready u hu).mp (hdeferred.attended u.addr ?_ ?_)
      · rw [hmarks, Function.update_self]
      · rw [hfreed]
        exact hlinked.2
    · intro hleaves
      have hattended := (hready u hu).mpr
        (hleaves n u hgone.found hflag hu fun hnone => hsome (hslot.mpr hnone))
      refine ⟨hfreed ▸ hd.once, fun a hmarked hlive => ?_⟩
      rcases eq_or_ne a u.addr with rfl | hne
      · exact hattended
      · rw [hmarks, Function.update_of_ne hne] at hmarked
        rw [hfreed] at hlive
        exact (huntouched a hmarked).attended h.save (hd.attended a hmarked hlive)

theorem deferred_enableBrokerCallback :
    Deferred (enableBrokerCallback s).broker ↔ Deferred s.broker := by
  unfold enableBrokerCallback
  dsimp only
  split
  · exact ⟨fun hd => ⟨hd.once, hd.attended⟩, fun hd => ⟨hd.once, hd.attended⟩⟩
  · rfl

theorem leavesAttended_enter :
    LeavesAttended connfd r { s with server := addNewUserNodeToList connfd s.server } ↔
      LeavesAttended connfd r s := by
  have hfind : findUserNodeByConnfd connfd (addNewUserNodeToList connfd s.server) =
      (findUserNodeByConnfd connfd s.server).or
        (some ⟨s.server.allocated, s.server.userNodeIdInit, connfd, .initial⟩) := by
    simp [findUserNodeByConnfd, addNewUserNodeToList, List.find?_append]
  unfold LeavesAttended
  simp only [hfind]
  constructor
  · intro hleaves n u hn
    exact hleaves n u (by rw [hn]; rfl)
  · intro hleaves n u hn hflag
    rcases hold : findUserNodeByConnfd connfd s.server with _ | n'
    · rw [hold] at hn
      obtain rfl := Option.some.inj hn
      exact absurd rfl hflag
    · rw [hold] at hn
      obtain rfl := Option.some.inj hn
      exact hleaves _ u hold hflag

theorem deferred_eventLoop_iff (h : Slots s) (hd : Deferred s.broker) (hstep : Step s l s') :
    Deferred s'.broker ↔ KeepsAttended s l := by
  obtain ⟨hin, hok⟩ := hstep
  rcases l with ⟨event, r⟩
  have handled : Handled s r event s' := handled_of_eventLoop hok
  have hkept : ∀ {g : GBrokerPara} {e : Event}, KeepsAttended s ⟨e, r⟩ → Deferred g →
      (Deferred g ↔ KeepsAttended s ⟨e, r⟩) := fun hguard hg => iff_of_true hg hguard
  cases handled with
  | acceptNewUser connfd =>
      refine hkept trivial (deferred_enableBrokerCallback (s := { s with
        server := addNewUserNodeToList connfd s.server }).mpr hd)
  | delDisconnectUser connfd _ hdel =>
      obtain ⟨n, hgone⟩ := delUser_gone h.kept h.rssi h.csi (hin connfd rfl) hdel
      exact deferred_gone h.rssi hd hgone
  | openwrtConnected _ hconnected =>
      cases handleOpenwrtConnected_connected h hconnected with
      | linkIsDown hlink => exact hkept (fun hup => absurd hlink hup) hd
      | entered hlink hwrite =>
          exact hkept (fun _ hfailed => absurd hfailed hwrite)
            (deferred_enableBrokerCallback.mpr hd)
      | left n s₂ hlink hwrite hgone =>
          have hleaves := deferred_gone (s := { s with
            server := addNewUserNodeToList s.server.openwrtConnfd s.server }) h.rssi hd hgone
          rw [deferred_enableBrokerCallback, hleaves, leavesAttended_enter]
          simp [KeepsAttended, hlink, hwrite]
  | inquiryRssi connfd ret broker hopen =>
    exact hkept trivial (deferred_inquiryRssi h.rssi hd hopen)
  | rssiReadyAndSend msg broker hsend =>
      exact hkept trivial (deferred_sendRssiToSave h.rssi hd hsend)
  | controlRssi connfd ret json broker server hsave =>
      exact hkept trivial (deferred_controlRssi h.rssi hd hsave)
  | clearRssi m ms broker hposted hclear =>
      exact hkept trivial (deferred_clearRssi h.rssi hd hposted hclear)
  | rssiWriteThread k broker hwrite =>
      exact hkept trivial (deferred_rssiWriteThread h.rssi hd hwrite)
  | startCsi connfd =>
      unfold handleStartCsi
      split <;> exact hkept trivial hd
  | startConstellation connfd =>
      unfold handleStartConstellation
      split <;> exact hkept trivial hd
  | _ => exact hkept trivial hd

end Steps

/-- The deferred deletion is sound in every state of a run exactly if every event
of it meets the condition. -/
theorem deletion_sound_iff {s₀ s : State} {trs : List (Transition State Label)}
    (hs : Started s₀) (h : Run Step s₀ trs s) :
    DeletionSound s₀.broker ∧
      ((∀ tr ∈ trs, DeletionSound tr.after.broker) ↔
        ∀ tr ∈ trs, KeepsAttended tr.before tr.label) := by
  have hslots := slots_started hs
  have hstart : Deferred s₀.broker := by
    obtain ⟨openJson, closeJson, hbroker⟩ := hs.broker
    rw [hbroker]
    exact ⟨List.nodup_nil, fun a hmarked => by simp [createBroker] at hmarked⟩
  have hkeep : ∀ a l b, Slots a ∧ Deferred a.broker → KeepsAttended a l → Step a l b →
      (Slots b ∧ Deferred b.broker) ∧ DeletionSound b.broker := by
    rintro a l b ⟨hslots, hd⟩ hguard hstep
    have hb := hslots.step hstep
    have hdb := (deferred_eventLoop_iff hslots hd hstep).mpr hguard
    exact ⟨⟨hb, hdb⟩, deletionSound_of_deferred hb.rssi hdb⟩
  have hbreak : ∀ a l b, Slots a ∧ Deferred a.broker → ¬ KeepsAttended a l → Step a l b →
      ¬ DeletionSound b.broker := by
    rintro a l b ⟨hslots, hd⟩ hguard hstep hsound
    exact hguard ((deferred_eventLoop_iff hslots hd hstep).mp
      ⟨hsound.once, fun a hmarked hlive => (hsound.attended a hmarked hlive).1⟩)
  exact ⟨deletionSound_of_deferred hslots.rssi hstart,
    h.forall_good_iff hkeep hbreak ⟨hslots, hstart⟩⟩

/-- Connection 7 saves RSSI and goes while its write thread is at work. -/
theorem deletion_sound_save_and_leave :
    ∃ trs s, Run Step (startState ⟨"dev", "1"⟩ ⟨"dev", "0"⟩) trs s ∧
      trs.map (fun tr => tr.label) =
        [⟨.acceptNewUser 7, .success⟩, ⟨.inquiryRssi 7, .success⟩,
          ⟨.controlRssi 7 (saveRequest 43 1 "a"), .success⟩, ⟨.delDisconnectUser 7, .success⟩] ∧
      s.broker.confirmDelete 0 = 1 ∧ 0 ∉ s.broker.freed ∧
      ∀ tr ∈ trs, DeletionSound tr.after.broker := by
  let start := startState ⟨"dev", "1"⟩ ⟨"dev", "0"⟩
  let labels : List Label := [⟨.acceptNewUser 7, .success⟩, ⟨.inquiryRssi 7, .success⟩,
    ⟨.controlRssi 7 (saveRequest 43 1 "a"), .success⟩]
  obtain ⟨trs, s₁, n, t, s, hs, hlabels, hn, hflag, hu, hone, hslot, hfile, hqueue, hstarts,
      hwriter, hleave, hmarked, hlive⟩ :
      ∃ trs s₁ n t s, replay survive start labels = some (trs, s₁) ∧
        trs.map (fun tr => tr.label) = labels ∧
        findUserNodeByConnfd 7 s₁.server = some n ∧ n.recordAction.enableRssiSave = 1 ∧
        findNode 7 s₁.broker = some ⟨0, 7⟩ ∧ attendants s₁.broker.save 0 = 1 ∧
        s₁.broker.save.fileT 0 = some t ∧ t.file.isSome = true ∧ t.queue.isSome = true ∧
        s₁.broker.save.starts = 1 ∧ (s₁.broker.save.recording 0).writer = some .fetch ∧
        survive s₁ ⟨.delDisconnectUser 7, .success⟩ = some s ∧
        s.broker.confirmDelete 0 = 1 ∧ s.broker.freed = [] :=
    ⟨_, _, _, _, _, rfl, rfl, rfl, rfl, rfl, rfl, rfl, rfl, rfl, rfl, rfl, rfl, rfl, rfl⟩
  have hrun : Run Step start trs s₁ := run_of_replay step_of_survive hs
  have hstep : Step s₁ ⟨.delDisconnectUser 7, .success⟩ s := step_of_survive _ _ _ hleave
  have hslots : Slots s₁ := slots_reached (startState_started _ _) hrun
  have hguard : LeavesAttended 7 .success s₁ := by
    intro n' u hn' _ hu' _
    obtain rfl := Option.some.inj (hn.symm.trans hn')
    obtain rfl := Option.some.inj (hu.symm.trans hu')
    refine ⟨hone, ⟨t, hslot, hfile, hqueue⟩, fun k _ hbusy => .inr ⟨⟨by simp [hflag], rfl⟩, ?_⟩⟩
    intro x t' hpop
    have hk : k = 0 := by
      have hlt := hslots.rssi.save.lt_starts hbusy
      omega
    rw [hk, hwriter] at hpop
    cases hpop
  have hall := hrun.concat hstep
  refine ⟨_, s, hall, by simp [hlabels, labels], hmarked, by simp [hlive], ?_⟩
  refine (deletion_sound_iff (startState_started _ _) hall).2.mpr fun tr htr => ?_
  rcases List.mem_append.mp htr with hfirst | hlast
  · have hlabel : tr.label ∈ labels := hlabels ▸ List.mem_map_of_mem hfirst
    have htrivial : ∀ l ∈ labels, KeepsAttended tr.before l := by simp [labels, KeepsAttended]
    exact htrivial _ hlabel
  · obtain rfl := List.mem_singleton.mp hlast
    exact hguard

/-- A stop before any start leaves a `write_file_t` that no write thread works on:
the node of a session that goes then is marked, and never freed. -/
theorem stop_first_not_sound :
    ∃ trs s, Run Step (startState ⟨"dev", "1"⟩ ⟨"dev", "0"⟩) trs s ∧
      trs.map (fun tr => tr.label) =
        [⟨.acceptNewUser 7, .success⟩, ⟨.inquiryRssi 7, .success⟩,
          ⟨.controlRssi 7 (saveRequest 43 0 ""), .success⟩, ⟨.delDisconnectUser 7, .success⟩] ∧
      s.broker.confirmDelete 0 = 1 ∧ 0 ∉ s.broker.freed ∧ attendants s.broker.save 0 = 0 ∧
      ¬ DeletionSound s.broker := by
  obtain ⟨trs, s, hs, hlabels, hmarked, hfreed, hnone⟩ :
      ∃ trs s, replay survive (startState ⟨"dev", "1"⟩ ⟨"dev", "0"⟩)
          [⟨.acceptNewUser 7, .success⟩, ⟨.inquiryRssi 7, .success⟩,
            ⟨.controlRssi 7 (saveRequest 43 0 ""), .success⟩,
            ⟨.delDisconnectUser 7, .success⟩] = some (trs, s) ∧
        trs.map (fun tr => tr.label) =
          [⟨.acceptNewUser 7, .success⟩, ⟨.inquiryRssi 7, .success⟩,
            ⟨.controlRssi 7 (saveRequest 43 0 ""), .success⟩,
            ⟨.delDisconnectUser 7, .success⟩] ∧
        s.broker.confirmDelete 0 = 1 ∧ s.broker.freed = [] ∧ attendants s.broker.save 0 = 0 :=
    ⟨_, _, rfl, rfl, rfl, rfl, rfl⟩
  have hlive : 0 ∉ s.broker.freed := by simp [hfreed]
  refine ⟨trs, s, run_of_replay step_of_survive hs, hlabels, hmarked, hlive, hnone,
    fun hsound => ?_⟩
  have hone := (hsound.attended 0 hmarked hlive).1.one
  rw [hnone] at hone
  cases hone

end GwWeb.DeferredDeletion
