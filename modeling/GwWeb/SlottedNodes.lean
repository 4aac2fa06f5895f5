import GwWeb.SaveNodes
import GwWeb.WriteThreads

/-!
The nodes of the two save protocols and their slots, whatever the order of the
commands.
-/

namespace GwWeb.SlottedNodes

open FirstMatch
open GwWeb.WebCommon
open GwWeb.MosquittoBroker
open GwWeb.DmaHandler
open GwWeb.WriteSlots
open GwWeb.WriteThreads
open GwWeb.SaveNodes

/-- What the RSSI list keeps: its nodes are there, and not marked. -/
structure RssiSlotted (g : GBrokerPara) : Prop where
  save : Slotted g.save g.allocated
  linked : Linked g.rssiUserNodeHead g.allocated g.freed
  unmarked : ∀ n ∈ g.rssiUserNodeHead, g.confirmDelete n.addr = 0
  bounded : ∀ a ∈ g.freed, a < g.allocated

/-- The CSI save nodes and their slots. -/
structure CsiSlotted (g : GDmaPara) : Prop where
  save : Slotted g.save g.allocated
  linked : Linked g.csiSaveUserNodeHead g.allocated g.csiSaveFreed
  bounded : ∀ a ∈ g.csiSaveFreed, a < g.allocated

section Rssi

variable {g g' : GBrokerPara} {connfd ret : Int} {reply : TransferReply} {r : SaveReplies}

theorem rssiSlotted_createBroker (openJson closeJson : ControlJson) :
    RssiSlotted (createBroker openJson closeJson) where
  save := slotted_empty
  linked := ⟨List.nodup_nil, by simp [createBroker]⟩
  unmarked := by simp [createBroker]
  bounded := by simp [createBroker]

theorem RssiSlotted.withSave (h : RssiSlotted g) {save : WriteComponent}
    (hsave : Slotted save g.allocated) : RssiSlotted { g with save } :=
  ⟨hsave, h.linked, h.unmarked, h.bounded⟩

theorem RssiSlotted.controlled (h : RssiSlotted g) (buf : ControlJson) (reply : TransferReply) :
    RssiSlotted (controlled buf reply g) :=
  ⟨h.save, h.linked, h.unmarked, h.bounded⟩

theorem RssiSlotted.enableCallback (h : RssiSlotted g) (enableCallback : Int) :
    RssiSlotted { g with enableCallback } :=
  ⟨h.save, h.linked, h.unmarked, h.bounded⟩

theorem RssiSlotted.ne_of_marked (h : RssiSlotted g) {a : Nat} (hmarked : g.confirmDelete a = 1) :
    ∀ n ∈ g.rssiUserNodeHead, n.addr ≠ a := by
  rintro n hn rfl
  rw [h.unmarked n hn] at hmarked
  cases hmarked

theorem RssiSlotted.found (h : RssiSlotted g) {n : UserNode} (hn : findNode connfd g = some n) :
    n.addr < g.allocated ∧ n.addr ∉ g.freed :=
  h.linked.valid n (List.mem_of_find?_eq_some hn)

theorem RssiSlotted.new_slot (h : RssiSlotted g) : g.save.setFileT g.allocated none = g.save := by
  have hself := WriteComponent.setFileT_self g.save g.allocated
  rwa [h.save.fresh g.allocated (Nat.le_refl _)] at hself

theorem RssiSlotted.addRssiUserNode (h : RssiSlotted g) (connfd : Int) :
    RssiSlotted (addRssiUserNode connfd g) where
  save := by
    have hsave := h.save.allocate (Nat.le_succ g.allocated)
    rwa [← h.new_slot] at hsave
  linked := h.linked.append h.bounded connfd
  unmarked := unmarked_addRssiUserNode h.linked h.unmarked connfd
  bounded := fun a ha => Nat.lt_succ_of_lt (h.bounded a ha)

theorem openRssiStateExternal_nodes (h : RssiSlotted g)
    (hok : openRssiStateExternal connfd reply g = .ok (ret, g')) :
    RssiSlotted g' ∧ g'.save = g.save ∧ g'.freed = g.freed ∧
      (g'.rssiUserNodeHead = g.rssiUserNodeHead ∧ g'.confirmDelete = g.confirmDelete ∨
        g'.rssiUserNodeHead = g.rssiUserNodeHead ++ [{ addr := g.allocated, connfd }] ∧
          g'.confirmDelete = Function.update g.confirmDelete g.allocated 0) := by
  have hg' : g' = _ := congrArg Prod.snd (openRssiStateExternal_ok hok)
  rw [hg']
  split
  · split
    · exact ⟨(h.controlled _ _).addRssiUserNode _, (h.controlled _ _).new_slot, rfl,
        .inr ⟨rfl, rfl⟩⟩
    · exact ⟨h.controlled _ _, rfl, rfl, .inl ⟨rfl, rfl⟩⟩
  · exact ⟨h.addRssiUserNode _, h.new_slot, rfl, .inr ⟨rfl, rfl⟩⟩

/-- What becomes of a node that is unlinked: it is freed if it has no
`write_file_t`, and marked otherwise. -/
structure Released (u : UserNode) (g g' : GBrokerPara) : Prop where
  nodes : g'.rssiUserNodeHead = g.rssiUserNodeHead.eraseP fun n => n.connfd = u.connfd
  save : g'.save = g.save
  node : g.save.fileT u.addr = none ∧ g'.freed = u.addr :: g.freed ∧
      g'.confirmDelete = g.confirmDelete ∨
    g.save.fileT u.addr ≠ none ∧ g'.freed = g.freed ∧
      g'.confirmDelete = Function.update g.confirmDelete u.addr 1

theorem closeRssiStateExternal_released (h : RssiSlotted g)
    (hlisted : connfd ∈ g.rssiUserNodeHead.map UserNode.connfd)
    (hok : closeRssiStateExternal connfd reply g = .ok g') :
    RssiSlotted g' ∧ ∃ u, findNode connfd g = some u ∧ Released u g g' := by
  obtain ⟨g₁, hunlink, rfl, -⟩ := closeRssiStateExternal_eq_ok_iff.mp hok
  have hany : (g.rssiUserNodeHead.any fun n => n.connfd = connfd) = true := by
    simpa using hlisted
  obtain ⟨u, hu⟩ := Option.isSome_iff_exists.mp
    (List.find?_isSome.mpr (List.any_eq_true.mp hany))
  have hmem := List.mem_of_find?_eq_some hu
  have hconnfd : u.connfd = connfd := by simpa using List.find?_some hu
  have hothers : ∀ n ∈ g.rssiUserNodeHead.eraseP (fun n => n.connfd = connfd),
      n.addr ≠ u.addr := fun n hn => key_ne_of_mem_eraseP h.linked.addrs hu hn
  have hrest := h.linked.eraseP fun n => n.connfd = connfd
  have hg₁ : RssiSlotted g₁ ∧ Released u g g₁ := by
    simp only [unlinkRssiUserNode, unlinkLoop_list, unlinkLoop_cursor_of_any hany, hu,
      releaseNode, h.unmarked u hmem, if_true] at hunlink
    split at hunlink
    · rename_i hnone
      obtain rfl := Except.ok.inj hunlink
      refine ⟨⟨h.save, hrest.free hothers, ?_, ?_⟩, by rw [hconnfd], rfl,
        .inl ⟨hnone, rfl, rfl⟩⟩
      · exact fun n hn => h.unmarked n (List.mem_of_mem_eraseP hn)
      · intro a ha
        rcases List.mem_cons.mp ha with rfl | hold
        · exact (h.linked.valid u hmem).1
        · exact h.bounded a hold
    · rename_i t hslot
      obtain rfl := Except.ok.inj hunlink
      refine ⟨⟨h.save, hrest, ?_, h.bounded⟩, by rw [hconnfd], rfl,
        .inr ⟨fun hnone => ?_, rfl, rfl⟩⟩
      · intro n hn
        dsimp only
        rw [Function.update_of_ne (hothers n hn)]
        exact h.unmarked n (List.mem_of_mem_eraseP hn)
      · have hslot : g.save.fileT u.addr = some t := hslot
        rw [hnone] at hslot
        cases hslot
  obtain ⟨hslotted, hreleased⟩ := hg₁
  unfold closed
  split
  · exact ⟨hslotted.controlled _ _, u, hu, hreleased.nodes, hreleased.save, hreleased.node⟩
  · exact ⟨hslotted, u, hu, hreleased⟩

theorem commanded_fresh {w w' : WriteComponent} {n : Nat} {already opCmd ret : Int}
    (hnone : w.fileT n = none)
    (h : Commanded already n opCmd r ret (w.setFileT n (some .fresh)) w') :
    Commanded already n opCmd r ret w w' := by
  refine h.of_same_runs ⟨fun m hm => ?_, fun _ _ => rfl⟩ (iff_of_false ?_ ?_)
  · exact WriteComponent.fileT_setFileT_of_ne _ _ _ hm
  · rw [runs_iff (WriteComponent.fileT_setFileT _ _ _)]
    simp [WriteFile.fresh]
  · exact not_runs_of_none hnone

theorem processRssiSaveFile_slots {root : CJson} (h : RssiSlotted g)
    (hok : processRssiSaveFile connfd root r g = .ok (ret, g')) :
    RssiSlotted g' ∧
      (g' = g ∧ ret ≠ 0 ∧
          (valueint root "type" = .ok typeRssiControl → findNode connfd g = none) ∨
        ∃ n opCmd, valueint root "type" = .ok typeRssiControl ∧
          valueint root "op_cmd" = .ok opCmd ∧ findNode connfd g = some n ∧
          Commanded (-1) n.addr opCmd r ret g.save g'.save) := by
  obtain ⟨type, htype, hok⟩ := bind_eq_ok.mp hok
  split at hok
  · rename_i hother
    obtain ⟨rfl, rfl⟩ := Prod.mk.inj (Except.ok.inj hok)
    refine ⟨h, .inl ⟨rfl, by decide, fun hright => absurd ?_ hother⟩⟩
    exact Except.ok.inj (htype.symm.trans hright)
  · rename_i hright
    obtain rfl := not_not.mp hright
    split at hok
    · rename_i hnone
      obtain ⟨rfl, rfl⟩ := Prod.mk.inj (Except.ok.inj hok)
      exact ⟨h, .inl ⟨rfl, by decide, fun _ => hnone⟩⟩
    · rename_i n hn
      obtain ⟨out, hcommand, hok⟩ := bind_eq_ok.mp hok
      obtain ⟨rfl, rfl⟩ := Prod.mk.inj (Except.ok.inj hok)
      obtain ⟨opCmd, hcmd, -⟩ := bind_eq_ok.mp hcommand
      split at hcommand
      · rename_i hnone
        have hslotted : Slotted (g.save.setFileT n.addr (some .fresh)) g.allocated :=
          h.save.setFileT (h.found hn).1 (by simp [WriteFile.fresh]) (by simp [WriteFile.fresh])
            (by simp [WriteFile.fresh])
        obtain ⟨hsave, hcommanded⟩ := saveCommand_slotted hslotted hcommand hcmd
        exact ⟨h.withSave hsave, .inr ⟨n, opCmd, htype, hcmd, hn,
          commanded_fresh hnone hcommanded⟩⟩
      · obtain ⟨hsave, hcommanded⟩ := saveCommand_slotted h.save hcommand hcmd
        exact ⟨h.withSave hsave, .inr ⟨n, opCmd, htype, hcmd, hn, hcommanded⟩⟩

theorem sendRssiToSave_slots {msg : RssiPriv} (h : RssiSlotted g)
    (hok : sendRssiToSave msg r g = .ok g') :
    RssiSlotted g' ∧ Quiet g.save g'.save ∧ ∀ a, Runs g'.save a ↔ Runs g.save a := by
  obtain ⟨save, hsend, hok⟩ := bind_eq_ok.mp hok
  obtain rfl := Except.ok.inj hok
  obtain ⟨hquiet, hruns⟩ := quiet_sendToSave _ hsend
  exact ⟨h.withSave (h.save.of_quiet hquiet), hquiet, hruns⟩

theorem rssiWriteThread_slots {k : Nat} (h : RssiSlotted g) (hok : rssiWriteThread k g = .ok g') :
    RssiSlotted g' ∧ g'.save.fileT = g.save.fileT ∧
      ∀ a, attendants g'.save a = attendants g.save a := by
  obtain ⟨save, hstep, hok⟩ := bind_eq_ok.mp hok
  obtain rfl := Except.ok.inj hok
  obtain ⟨hslotted, hslots, hattendants⟩ := writeThread_slotted h.save hstep
  exact ⟨h.withSave hslotted, hslots, hattendants⟩

/-- The message at the head of the queue is gone, and with it the slot of its
node, and the node if it is marked. -/
theorem clearRssiWriteStatus_slots {m : ClearStatus} {ms : List ClearStatus} (h : RssiSlotted g)
    (hok : clearRssiWriteStatus m.node { g with save := { g.save with posted := ms } } = .ok g') :
    RssiSlotted g' ∧ m.node ∉ g.freed ∧
      TakesAway m.node { g.save with posted := ms } g'.save ∧
      g' = { g with
        save := g'.save
        freed := if g.confirmDelete m.node = 1 then m.node :: g.freed else g.freed } := by
  obtain ⟨save, hclear, hok⟩ := bind_eq_ok.mp hok
  obtain ⟨hfreed, ⟨t, hslot, -⟩, htakes⟩ :=
    clearWriteStatus_takesAway (h.save.post ms) hclear
  have hslotted := htakes.slotted (h.save.post ms)
  have hlt := h.save.lt_allocated hslot
  dsimp only at hok
  split at hok
  · rename_i hmarked
    obtain rfl := Except.ok.inj hok
    refine ⟨⟨hslotted, h.linked.free (h.ne_of_marked hmarked), h.unmarked, ?_⟩, hfreed, htakes,
      ?_⟩
    · intro a ha
      rcases List.mem_cons.mp ha with rfl | hold
      · exact hlt
      · exact h.bounded a hold
    · rw [if_pos hmarked]
  · rename_i hunmarked
    obtain rfl := Except.ok.inj hok
    exact ⟨h.withSave hslotted, hfreed, htakes, by rw [if_neg hunmarked]⟩

end Rssi

section Csi

variable {g g' : GDmaPara} {connfd ret : Int} {r : SaveReplies}

theorem csiSlotted_createDmaHandler {axidmaOpen : Bool}
    (hok : createDmaHandler axidmaOpen = some g) : CsiSlotted g := by
  unfold createDmaHandler at hok
  split at hok
  · obtain rfl := Option.some.inj hok
    exact ⟨slotted_empty, ⟨List.nodup_nil, by simp⟩, by simp⟩
  · cases hok

theorem CsiSlotted.withSave (h : CsiSlotted g) {save : WriteComponent}
    (hsave : Slotted save g.allocated) : CsiSlotted { g with save } :=
  ⟨hsave, h.linked, h.bounded⟩

theorem CsiSlotted.of_same (h : CsiSlotted g) (hsame : SameSaves g g') : CsiSlotted g' := by
  obtain ⟨hsave, hnodes, hfreed, hle⟩ := hsame
  refine ⟨?_, ?_, fun a ha => Nat.lt_of_lt_of_le (h.bounded a (hfreed ▸ ha)) hle⟩
  · rw [hsave]
    exact h.save.allocate hle
  · rw [hnodes, hfreed]
    exact h.linked.allocate hle

theorem csiSaveUserNode_nodes (h : CsiSlotted g) (connfd : Int) :
    CsiSlotted (csiSaveUserNode connfd g).2 ∧
      (findCsiSaveUserNode connfd g =
          some { addr := (csiSaveUserNode connfd g).1, connfd := connfd } ∧
        (csiSaveUserNode connfd g).2 = g ∨
      findCsiSaveUserNode connfd g = none ∧ (csiSaveUserNode connfd g).1 = g.allocated ∧
        (csiSaveUserNode connfd g).2.csiSaveUserNodeHead =
          g.csiSaveUserNodeHead ++ [{ addr := g.allocated, connfd }] ∧
        (csiSaveUserNode connfd g).2.save = g.save.setFileT g.allocated (some .fresh)) := by
  unfold csiSaveUserNode
  split
  · rename_i n hn
    have hconnfd : n.connfd = connfd := by simpa using List.find?_some hn
    refine ⟨h, .inl ⟨?_, rfl⟩⟩
    rw [hn, ← hconnfd]
  · rename_i hnone
    refine ⟨⟨?_, h.linked.append h.bounded connfd,
      fun a ha => Nat.lt_succ_of_lt (h.bounded a ha)⟩, .inr ⟨hnone, rfl, rfl, rfl⟩⟩
    exact (h.save.allocate (Nat.le_succ _)).setFileT (Nat.lt_succ_self _)
      (by simp [WriteFile.fresh]) (by simp [WriteFile.fresh]) (by simp [WriteFile.fresh])

theorem CsiSlotted.found (h : CsiSlotted g) {n : UserNode}
    (hn : findCsiSaveUserNode connfd g = some n) : n.addr < g.allocated ∧ n.addr ∉ g.csiSaveFreed :=
  h.linked.valid n (List.mem_of_find?_eq_some hn)

theorem processCsiSaveFile_slots {root : CJson} (h : CsiSlotted g)
    (hok : processCsiSaveFile connfd root r g = .ok (ret, g')) :
    CsiSlotted g' ∧
      (g' = g ∧ valueint root "type" ≠ .ok typeControlSaveCsi ∨
        ∃ n opCmd, valueint root "type" = .ok typeControlSaveCsi ∧
          valueint root "op_cmd" = .ok opCmd ∧ n.connfd = connfd ∧
          Commanded 0 n.addr opCmd r ret g.save g'.save ∧
          (findCsiSaveUserNode connfd g = some n ∧
              g'.csiSaveUserNodeHead = g.csiSaveUserNodeHead ∨
            findCsiSaveUserNode connfd g = none ∧ n.addr = g.allocated ∧
              g'.csiSaveUserNodeHead = g.csiSaveUserNodeHead ++ [n])) := by
  obtain ⟨type, htype, hok⟩ := bind_eq_ok.mp hok
  split at hok
  · rename_i hother
    obtain ⟨rfl, rfl⟩ := Prod.mk.inj (Except.ok.inj hok)
    refine ⟨h, .inl ⟨rfl, fun hright => hother ?_⟩⟩
    exact Except.ok.inj (htype.symm.trans hright)
  · rename_i hright
    obtain rfl := not_not.mp hright
    obtain ⟨out, hcommand, hok⟩ := bind_eq_ok.mp hok
    obtain ⟨rfl, rfl⟩ := Prod.mk.inj (Except.ok.inj hok)
    obtain ⟨opCmd, hcmd, -⟩ := bind_eq_ok.mp hcommand
    obtain ⟨hnode, hcases⟩ := csiSaveUserNode_nodes h connfd
    obtain ⟨hsave, hcommanded⟩ := saveCommand_slotted hnode.save hcommand hcmd
    refine ⟨hnode.withSave hsave, .inr ⟨⟨(csiSaveUserNode connfd g).1, connfd⟩, opCmd, htype, hcmd,
      rfl, ?_⟩⟩
    rcases hcases with ⟨hfound, hsame⟩ | ⟨hnone, haddr, hnodes, hfresh⟩
    · rw [hsame] at hcommanded
      refine ⟨hcommanded, .inl ⟨hfound, ?_⟩⟩
      show (csiSaveUserNode connfd g).2.csiSaveUserNodeHead = _
      rw [hsame]
    · rw [haddr, hfresh] at hcommanded
      refine ⟨?_, .inr ⟨hnone, haddr, haddr ▸ hnodes⟩⟩
      rw [haddr]
      exact commanded_fresh (h.save.fresh _ (Nat.le_refl _)) hcommanded

theorem sendCsiToSave_slots (h : CsiSlotted g) (hok : sendCsiToSave r g = .ok g') :
    CsiSlotted g' ∧ Quiet g.save g'.save ∧ ∀ a, Runs g'.save a ↔ Runs g.save a := by
  obtain ⟨save, hsend, hok⟩ := bind_eq_ok.mp hok
  obtain rfl := Except.ok.inj hok
  obtain ⟨hquiet, hruns⟩ := quiet_sendToSave _ hsend
  exact ⟨h.withSave (h.save.of_quiet hquiet), hquiet, hruns⟩

theorem csiWriteThread_slots {k : Nat} (h : CsiSlotted g) (hok : csiWriteThread k g = .ok g') :
    CsiSlotted g' ∧ g'.save.fileT = g.save.fileT := by
  obtain ⟨save, hstep, hok⟩ := bind_eq_ok.mp hok
  obtain rfl := Except.ok.inj hok
  obtain ⟨hslotted, hslots, -⟩ := writeThread_slotted h.save hstep
  exact ⟨h.withSave hslotted, hslots⟩

theorem clearCsiWriteStatus_slots {m : ClearStatus} {ms : List ClearStatus} (h : CsiSlotted g)
    (hok : clearCsiWriteStatus m.node { g with save := { g.save with posted := ms } } = .ok g') :
    CsiSlotted g' ∧ TakesAway m.node { g.save with posted := ms } g'.save ∧
      g'.csiSaveUserNodeHead = g.csiSaveUserNodeHead.eraseP fun n => n.addr = m.node := by
  obtain ⟨save, hclear, hok⟩ := bind_eq_ok.mp hok
  obtain rfl := Except.ok.inj hok
  obtain ⟨-, ⟨t, hslot, -⟩, htakes⟩ := clearWriteStatus_takesAway (h.save.post ms) hclear
  have hlt := h.save.lt_allocated hslot
  refine ⟨⟨htakes.slotted (h.save.post ms), ?_, ?_⟩, htakes, unlinkLoop_list _ _ _⟩
  · dsimp only
    rw [unlinkLoop_list]
    exact (h.linked.eraseP _).free fun n hn => h.linked.ne_of_mem_eraseP_addr hn
  · intro a ha
    rcases List.mem_cons.mp ha with rfl | hold
    · exact hlt
    · exact h.bounded a hold

end Csi

end GwWeb.SlottedNodes
