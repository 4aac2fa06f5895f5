import GwWeb.EventProcess
import GwWeb.WriteOperations

/-!
The two save protocols keep their write components isolated: RSSI, whose nodes
are the users of the RSSI list, and CSI, with a list of save nodes of its own.
-/

namespace GwWeb.SaveNodes

open FirstMatch
open GwWeb.WebCommon
open GwWeb.Server
open GwWeb.MosquittoBroker
open GwWeb.DmaHandler
open GwWeb.EventProcess
open GwWeb.WriteIsolation

/-- The nodes in a list are distinct blocks that were not freed. -/
structure Linked (nodes : List UserNode) (allocated : Nat) (freed : List Nat) : Prop where
  addrs : (nodes.map UserNode.addr).Nodup
  valid : ∀ n ∈ nodes, n.addr < allocated ∧ n.addr ∉ freed

/-- A start command on a node that names no queue, unless its `enable` is 1, when
the command does nothing. -/
def FreshStart (type : Int) (root : CJson) (node : Option UserNode) (w : WriteComponent) : Prop :=
  valueint root "type" = .ok type → valueint root "op_cmd" = .ok 1 →
    ∀ n ∈ node, ∀ t ∈ w.fileT n.addr, t.enable ≠ 1 → t.queue = none

instance (type : Int) (root : CJson) (node : Option UserNode) (w : WriteComponent) :
    Decidable (FreshStart type root node w) :=
  inferInstanceAs (Decidable (_ → _ → ∀ n ∈ node, ∀ t ∈ w.fileT n.addr, _ → _))

section Linked

variable {nodes : List UserNode} {allocated : Nat} {freed : List Nat}

theorem Linked.append (h : Linked nodes allocated freed)
    (hfreed : ∀ n ∈ freed, n < allocated) (connfd : Int) :
    Linked (nodes ++ [{ addr := allocated, connfd }]) (allocated + 1) freed where
  addrs := by
    rw [List.map_append]
    refine List.nodup_append.mpr ⟨h.addrs, by simp, ?_⟩
    rintro a ha b hb rfl
    obtain ⟨n, hn, rfl⟩ := List.mem_map.mp ha
    have hlt := (h.valid n hn).1
    have heq : n.addr = allocated := by simpa using hb
    omega
  valid := by
    intro n hn
    rcases List.mem_append.mp hn with hold | hnew
    · obtain ⟨hlt, hnot⟩ := h.valid n hold
      exact ⟨Nat.lt_succ_of_lt hlt, hnot⟩
    · obtain rfl := List.mem_singleton.mp hnew
      exact ⟨Nat.lt_succ_self _, fun hmem => Nat.lt_irrefl _ (hfreed _ hmem)⟩

theorem Linked.allocate (h : Linked nodes allocated freed) {allocated' : Nat}
    (hle : allocated ≤ allocated') : Linked nodes allocated' freed :=
  ⟨h.addrs, fun n hn => ⟨Nat.lt_of_lt_of_le (h.valid n hn).1 hle, (h.valid n hn).2⟩⟩

theorem Linked.eraseP (h : Linked nodes allocated freed) (p : UserNode → Bool) :
    Linked (nodes.eraseP p) allocated freed where
  addrs := h.addrs.sublist (List.eraseP_sublist.map _)
  valid := fun n hn => h.valid n (List.mem_of_mem_eraseP hn)

theorem Linked.ne_of_mem_eraseP_addr (h : Linked nodes allocated freed) {a : Nat} {n : UserNode}
    (hn : n ∈ nodes.eraseP fun n => n.addr = a) : n.addr ≠ a := by
  intro heq
  have hmem : a ∈ (nodes.map UserNode.addr).erase a := by
    rw [← map_eraseP_key UserNode.addr, ← heq]
    exact List.mem_map_of_mem (heq ▸ hn)
  exact h.addrs.not_mem_erase hmem

theorem Linked.free (h : Linked nodes allocated freed) {a : Nat} (ha : ∀ n ∈ nodes, n.addr ≠ a) :
    Linked nodes allocated (a :: freed) where
  addrs := h.addrs
  valid := fun n hn => ⟨(h.valid n hn).1, by simp [ha n hn, (h.valid n hn).2]⟩

end Linked

section Rssi

/-- What the RSSI save protocol keeps; a node in the list is not marked. -/
structure RssiIsolated (g : GBrokerPara) : Prop where
  save : Isolated g.save g.allocated g.freed
  linked : Linked g.rssiUserNodeHead g.allocated g.freed
  unmarked : ∀ n ∈ g.rssiUserNodeHead, g.confirmDelete n.addr = 0

variable {g g' : GBrokerPara}

theorem rssiIsolated_createBroker (openJson closeJson : ControlJson) :
    RssiIsolated (createBroker openJson closeJson) where
  save := isolated_empty
  linked := ⟨List.nodup_nil, by simp [createBroker]⟩
  unmarked := by simp [createBroker]

theorem RssiIsolated.withSave (h : RssiIsolated g) {save : WriteComponent}
    (hsave : Isolated save g.allocated g.freed) : RssiIsolated { g with save } :=
  ⟨hsave, h.linked, h.unmarked⟩

theorem RssiIsolated.controlled (h : RssiIsolated g) (buf : ControlJson)
    (reply : TransferReply) : RssiIsolated (controlled buf reply g) :=
  ⟨h.save, h.linked, h.unmarked⟩

theorem RssiIsolated.enableCallback (h : RssiIsolated g) (enableCallback : Int) :
    RssiIsolated { g with enableCallback } :=
  ⟨h.save, h.linked, h.unmarked⟩

theorem unmarked_addRssiUserNode {freed : List Nat}
    (hlinked : Linked g.rssiUserNodeHead g.allocated freed)
    (h : ∀ n ∈ g.rssiUserNodeHead, g.confirmDelete n.addr = 0) (connfd : Int) :
    ∀ n ∈ (addRssiUserNode connfd g).rssiUserNodeHead,
      (addRssiUserNode connfd g).confirmDelete n.addr = 0 := by
  intro n hn
  simp only [addRssiUserNode]
  rcases List.mem_append.mp hn with hold | hnew
  · have hne : n.addr ≠ g.allocated := Nat.ne_of_lt (hlinked.valid n hold).1
    rw [Function.update_of_ne hne]
    exact h n hold
  · obtain rfl := List.mem_singleton.mp hnew
    exact Function.update_self _ _ _

theorem RssiIsolated.addRssiUserNode (h : RssiIsolated g) (connfd : Int) :
    RssiIsolated (addRssiUserNode connfd g) where
  save := by
    have hnone := h.save.fresh g.allocated (Nat.le_refl _)
    have hsave := h.save.allocate (Nat.le_succ g.allocated)
    have hself := WriteComponent.setFileT_self g.save g.allocated
    rw [hnone] at hself
    rwa [← hself] at hsave
  linked := h.linked.append (fun n hn => (h.save.released n hn).2) connfd
  unmarked := unmarked_addRssiUserNode h.linked h.unmarked connfd

theorem rssiIsolated_openRssiStateExternal (h : RssiIsolated g) {connfd : Int}
    {reply : TransferReply} {ret : Int}
    (hok : openRssiStateExternal connfd reply g = .ok (ret, g')) : RssiIsolated g' := by
  have hg' : g' = _ := congrArg Prod.snd (openRssiStateExternal_ok hok)
  rw [hg']
  split
  · split
    · exact (h.controlled _ _).addRssiUserNode _
    · exact h.controlled _ _
  · exact h.addRssiUserNode _

theorem rssiIsolated_closeRssiStateExternal (h : RssiIsolated g) {connfd : Int}
    {reply : TransferReply} (hlisted : connfd ∈ g.rssiUserNodeHead.map UserNode.connfd)
    (hok : closeRssiStateExternal connfd reply g = .ok g') : RssiIsolated g' := by
  obtain ⟨g₁, hunlink, rfl, -⟩ := closeRssiStateExternal_eq_ok_iff.mp hok
  have hg₁ : RssiIsolated g₁ := by
    have hany : (g.rssiUserNodeHead.any fun n => n.connfd = connfd) = true := by
      simpa using hlisted
    obtain ⟨n, hn⟩ := Option.isSome_iff_exists.mp
      (List.find?_isSome.mpr (List.any_eq_true.mp hany))
    have hmem := List.mem_of_find?_eq_some hn
    have hothers : ∀ u ∈ g.rssiUserNodeHead.eraseP (fun n => n.connfd = connfd),
        u.addr ≠ n.addr := fun u hu => key_ne_of_mem_eraseP h.linked.addrs hn hu
    have hrest := h.linked.eraseP fun n => n.connfd = connfd
    simp only [unlinkRssiUserNode, unlinkLoop_list, unlinkLoop_cursor_of_any hany, hn,
      releaseNode, h.unmarked n hmem, if_true] at hunlink
    split at hunlink
    · rename_i hnone
      obtain rfl := Except.ok.inj hunlink
      refine ⟨h.save.free hnone (h.linked.valid n hmem).1, hrest.free hothers, ?_⟩
      exact fun u hu => h.unmarked u (List.mem_of_mem_eraseP hu)
    · obtain rfl := Except.ok.inj hunlink
      refine ⟨h.save, hrest, ?_⟩
      intro u hu
      dsimp only
      rw [Function.update_of_ne (hothers u hu)]
      exact h.unmarked u (List.mem_of_mem_eraseP hu)
  unfold closed
  split
  · exact hg₁.controlled _ _
  · exact hg₁

theorem rssiIsolated_processRssiSaveFile (h : RssiIsolated g) {connfd : Int} {root : CJson}
    {r : SaveReplies} {ret : Int}
    (hfresh : FreshStart typeRssiControl root (findNode connfd g) g.save)
    (hok : processRssiSaveFile connfd root r g = .ok (ret, g')) : RssiIsolated g' := by
  obtain ⟨type, htype, hok⟩ := bind_eq_ok.mp hok
  split at hok
  · obtain rfl := (Prod.mk.inj (Except.ok.inj hok)).2
    exact h
  · rename_i hright
    obtain rfl := not_not.mp hright
    split at hok
    · obtain rfl := (Prod.mk.inj (Except.ok.inj hok)).2
      exact h
    · rename_i n hn
      obtain ⟨out, hcommand, hok⟩ := bind_eq_ok.mp hok
      obtain rfl := (Prod.mk.inj (Except.ok.inj hok)).2
      obtain ⟨hlt, hfreed⟩ := h.linked.valid n (List.mem_of_find?_eq_some hn)
      apply h.withSave
      split at hcommand
      · rename_i hnone
        have hidle : Unqueued g.save n.addr := by
          intro t hslot
          rw [hnone] at hslot
          cases hslot
        refine isolated_saveCommand (h.save.setUnqueued hidle hlt hfreed rfl (by decide))
          hcommand ?_
        intro _ t hslot _
        simp only [WriteComponent.fileT_setFileT, Option.some.injEq] at hslot
        rw [← hslot]
        rfl
      · apply isolated_saveCommand h.save hcommand
        exact fun hstart t hslot => hfresh htype hstart n hn t hslot

theorem rssiRecord_ne_nil {msg : RssiPriv} (buf : List UInt8) (hok : rssiRecord msg = .ok buf) :
    buf ≠ [] := by
  unfold rssiRecord at hok
  split at hok
  · rw [← Except.ok.inj hok]
    simp [int32Bytes]
  · cases hok

theorem rssiIsolated_sendRssiToSave (h : RssiIsolated g) {msg : RssiPriv} {r : SaveReplies}
    (hok : sendRssiToSave msg r g = .ok g') : RssiIsolated g' := by
  obtain ⟨save, hsend, hok⟩ := bind_eq_ok.mp hok
  obtain rfl := Except.ok.inj hok
  exact h.withSave (isolated_sendToSave rssiRecord_ne_nil _ h.save hsend)

theorem rssiIsolated_rssiWriteThread (h : RssiIsolated g) {k : Nat}
    (hok : rssiWriteThread k g = .ok g') : RssiIsolated g' := by
  obtain ⟨save, hstep, hok⟩ := bind_eq_ok.mp hok
  obtain rfl := Except.ok.inj hok
  obtain ⟨w', hw', hisolated⟩ := isolated_writeThread h.save k
  obtain rfl := Except.ok.inj (hw'.symm.trans hstep)
  exact h.withSave hisolated

theorem clearRssiWriteStatus_eq (h : RssiIsolated g) {m : ClearStatus} {ms : List ClearStatus}
    (hposted : g.save.posted = m :: ms) :
    clearRssiWriteStatus m.node { g with save := { g.save with posted := ms } } =
      .ok { g with
        save := cleared g.save m ms
        freed := if g.confirmDelete m.node = 1 then m.node :: g.freed else g.freed } := by
  have hclear := clearWriteStatus_ok h.save hposted
  simp only [clearRssiWriteStatus, hclear, bind, Except.bind]
  split <;> rfl

theorem rssiIsolated_clearRssiWriteStatus (h : RssiIsolated g) {m : ClearStatus}
    {ms : List ClearStatus} (hposted : g.save.posted = m :: ms)
    (hok : clearRssiWriteStatus m.node { g with save := { g.save with posted := ms } } = .ok g') :
    RssiIsolated g' := by
  obtain rfl := Except.ok.inj ((clearRssiWriteStatus_eq h hposted).symm.trans hok)
  have hcleared := h.save.clear hposted
  obtain ⟨-, t, hslot, -⟩ := h.save.posted m (by simp [hposted])
  split
  · rename_i hmarked
    have hunlisted : ∀ n ∈ g.rssiUserNodeHead, n.addr ≠ m.node := by
      rintro n hn heq
      have hzero := h.unmarked n hn
      rw [heq, hmarked] at hzero
      cases hzero
    refine ⟨hcleared.free ?_ (h.save.lt_allocated hslot), h.linked.free hunlisted, h.unmarked⟩
    exact Function.update_self _ _ _
  · exact h.withSave hcleared

end Rssi

section Csi

/-- The CSI save protocol, isolated. -/
structure CsiIsolated (g : GDmaPara) : Prop where
  save : Isolated g.save g.allocated g.csiSaveFreed
  linked : Linked g.csiSaveUserNodeHead g.allocated g.csiSaveFreed

variable {g g' : GDmaPara}

theorem csiIsolated_createDmaHandler {axidmaOpen : Bool}
    (hok : createDmaHandler axidmaOpen = some g) : CsiIsolated g := by
  unfold createDmaHandler at hok
  split at hok
  · obtain rfl := Option.some.inj hok
    exact ⟨isolated_empty, List.nodup_nil, by simp⟩
  · cases hok

theorem CsiIsolated.withSave (h : CsiIsolated g) {save : WriteComponent}
    (hsave : Isolated save g.allocated g.csiSaveFreed) : CsiIsolated { g with save } :=
  ⟨hsave, h.linked⟩

/-- What the other routines of the module do to the save protocol: at most they
allocate. -/
structure SameSaves (g g' : GDmaPara) : Prop where
  save : g'.save = g.save
  nodes : g'.csiSaveUserNodeHead = g.csiSaveUserNodeHead
  freed : g'.csiSaveFreed = g.csiSaveFreed
  allocated : g.allocated ≤ g'.allocated

theorem SameSaves.refl (g : GDmaPara) : SameSaves g g := ⟨rfl, rfl, rfl, Nat.le_refl _⟩

theorem CsiIsolated.of_same (h : CsiIsolated g) (hsame : SameSaves g g') : CsiIsolated g' := by
  obtain ⟨hsave, hnodes, hfreed, hle⟩ := hsame
  constructor
  · rw [hsave, hfreed]
    exact h.save.allocate hle
  · rw [hnodes, hfreed]
    exact h.linked.allocate hle

theorem sameSaves_startCsiStateExternal (connfd : Int) (r : StartReply) (g : GDmaPara) :
    SameSaves g (startCsiStateExternal connfd r g).2 := by
  have hadd : ∀ g : GDmaPara, SameSaves g (addCsiUserNode connfd g) := by
    intro g
    rw [addCsiUserNode_eq]
    refine ⟨rfl, rfl, rfl, ?_⟩
    dsimp only
    split
    · exact Nat.le_refl _
    · exact Nat.le_succ _
  have hstart : SameSaves g (startCsi r g).2 := by
    rw [startCsi_eq]
    exact ⟨rfl, rfl, rfl, Nat.le_refl _⟩
  unfold startCsiStateExternal
  split
  · dsimp only
    split
    · exact hstart
    · obtain ⟨hsave, hnodes, hfreed, hle⟩ := hadd (startCsi r g).2
      exact ⟨hsave.trans hstart.save, hnodes.trans hstart.nodes, hfreed.trans hstart.freed,
        Nat.le_trans hstart.allocated hle⟩
  · exact hadd g

theorem sameSaves_stopCsiStateExternal (connfd rc : Int) (g : GDmaPara) :
    SameSaves g (stopCsiStateExternal connfd rc g) := by
  rw [stopCsiStateExternal_eq]
  exact ⟨rfl, rfl, rfl, Nat.le_refl _⟩

theorem sameSaves_startConstellationExternal (connfd : Int) (r : StartReply) (g : GDmaPara) :
    SameSaves g (startConstellationExternal connfd r g).2 := by
  have hadd : ∀ g : GDmaPara, SameSaves g (addConstellUserNode connfd g) := by
    intro g
    rw [addConstellUserNode_eq]
    refine ⟨rfl, rfl, rfl, ?_⟩
    dsimp only
    split
    · exact Nat.le_refl _
    · exact Nat.le_succ _
  unfold startConstellationExternal
  split
  · obtain ⟨hsave, hnodes, hfreed, hle⟩ := hadd (startConstellation r g).2
    rw [startConstellation_eq] at hsave hnodes hfreed hle
    rw [startConstellation_eq]
    exact ⟨hsave, hnodes, hfreed, hle⟩
  · exact hadd g

theorem sameSaves_stopConstellationExternal (connfd rc : Int) (g : GDmaPara) :
    SameSaves g (stopConstellationExternal connfd rc g) := by
  rw [stopConstellationExternal_eq]
  exact ⟨rfl, rfl, rfl, Nat.le_refl _⟩

theorem undoDma_saves {connfd : Int} {action : RecordAction} {r : Replies}
    (hok : undoDma connfd action r g = .ok g') :
    ∃ save,
      ((action.enableCsiSave = 0 ∨ findCsiSaveUserNode connfd g = none) ∧ save = g.save ∨
        action.enableCsiSave ≠ 0 ∧
          ∃ u, findCsiSaveUserNode connfd g = some u ∧
            informStop u.addr r.save g.save = .ok save) ∧
      SameSaves { g with save } g' := by
  obtain ⟨save, hstop, rfl⟩ := undoDma_ok hok
  have hfirst : SameSaves g (if action.enableStartCsi ≠ 0 then
      stopCsiStateExternal connfd r.stopCsi g else g) := by
    split
    · exact sameSaves_stopCsiStateExternal _ _ _
    · exact .refl g
  revert hstop
  generalize (if action.enableStartCsi ≠ 0 then stopCsiStateExternal connfd r.stopCsi g
    else g) = g₁ at hfirst
  intro hstop
  have hlast : SameSaves { g₁ with save } (if action.enableStartConstell ≠ 0 then
      stopConstellationExternal connfd r.stopConstellation { g₁ with save }
      else { g₁ with save }) := by
    split
    · exact sameSaves_stopConstellationExternal _ _ _
    · exact .refl _
  refine ⟨save, ?_, hlast.save, hlast.nodes.trans hfirst.nodes, hlast.freed.trans hfirst.freed,
    Nat.le_trans hfirst.allocated hlast.allocated⟩
  rw [findCsiSaveUserNode, ← hfirst.nodes, ← hfirst.save]
  exact hstop

theorem csiIsolated_csiSaveUserNode (h : CsiIsolated g) (connfd : Int) :
    CsiIsolated (csiSaveUserNode connfd g).2 := by
  unfold csiSaveUserNode
  split
  · exact h
  · have hbound : ∀ n ∈ g.csiSaveFreed, n < g.allocated := fun n hn => (h.save.released n hn).2
    have hnone := h.save.fresh g.allocated (Nat.le_refl _)
    refine ⟨?_, h.linked.append hbound connfd⟩
    refine (h.save.allocate (Nat.le_succ _)).setUnqueued ?_ (Nat.lt_succ_self _) ?_ rfl (by decide)
    · intro t hslot
      rw [hnone] at hslot
      cases hslot
    · exact fun hmem => Nat.lt_irrefl _ (hbound _ hmem)

theorem csiIsolated_processCsiSaveFile (h : CsiIsolated g) {connfd : Int} {root : CJson}
    {r : SaveReplies} {ret : Int}
    (hfresh : FreshStart typeControlSaveCsi root (findCsiSaveUserNode connfd g) g.save)
    (hok : processCsiSaveFile connfd root r g = .ok (ret, g')) : CsiIsolated g' := by
  obtain ⟨type, htype, hok⟩ := bind_eq_ok.mp hok
  split at hok
  · obtain rfl := (Prod.mk.inj (Except.ok.inj hok)).2
    exact h
  · rename_i hright
    obtain rfl := not_not.mp hright
    obtain ⟨out, hcommand, hok⟩ := bind_eq_ok.mp hok
    obtain rfl := (Prod.mk.inj (Except.ok.inj hok)).2
    have hnode := csiIsolated_csiSaveUserNode h connfd
    refine hnode.withSave (isolated_saveCommand hnode.save hcommand ?_)
    intro hstart t hslot henable
    unfold csiSaveUserNode at hslot
    split at hslot
    · rename_i n hn
      exact hfresh htype hstart n hn t hslot henable
    · simp only [WriteComponent.fileT_setFileT, Option.some.injEq] at hslot
      rw [← hslot]
      rfl

theorem csiIsolated_sendCsiToSave (h : CsiIsolated g) {r : SaveReplies}
    (hbuf : g.csiSpectrumBuf ≠ []) (hok : sendCsiToSave r g = .ok g') : CsiIsolated g' := by
  obtain ⟨save, hsend, hok⟩ := bind_eq_ok.mp hok
  obtain rfl := Except.ok.inj hok
  refine h.withSave (isolated_sendToSave ?_ _ h.save hsend)
  intro buf heq
  exact Except.ok.inj heq ▸ hbuf

theorem csiIsolated_csiWriteThread (h : CsiIsolated g) {k : Nat}
    (hok : csiWriteThread k g = .ok g') : CsiIsolated g' := by
  obtain ⟨save, hstep, hok⟩ := bind_eq_ok.mp hok
  obtain rfl := Except.ok.inj hok
  obtain ⟨w', hw', hisolated⟩ := isolated_writeThread h.save k
  obtain rfl := Except.ok.inj (hw'.symm.trans hstep)
  exact h.withSave hisolated

theorem clearCsiWriteStatus_eq (h : CsiIsolated g) {m : ClearStatus} {ms : List ClearStatus}
    (hposted : g.save.posted = m :: ms) :
    clearCsiWriteStatus m.node { g with save := { g.save with posted := ms } } =
      .ok { g with
        csiSaveUserNodeHead := g.csiSaveUserNodeHead.eraseP fun n => n.addr = m.node
        csiSaveUserCnt :=
          if g.csiSaveUserNodeHead.any fun n => n.addr = m.node then g.csiSaveUserCnt - 1
          else g.csiSaveUserCnt
        save := cleared g.save m ms
        csiSaveFreed := m.node :: g.csiSaveFreed } := by
  have hclear := clearWriteStatus_ok h.save hposted
  simp only [clearCsiWriteStatus, hclear, bind, Except.bind, unlinkLoop_list, unlinkLoop_found]
  rfl

theorem csiIsolated_clearCsiWriteStatus (h : CsiIsolated g) {m : ClearStatus}
    {ms : List ClearStatus} (hposted : g.save.posted = m :: ms)
    (hok : clearCsiWriteStatus m.node { g with save := { g.save with posted := ms } } = .ok g') :
    CsiIsolated g' := by
  obtain rfl := Except.ok.inj ((clearCsiWriteStatus_eq h hposted).symm.trans hok)
  obtain ⟨-, t, hslot, -⟩ := h.save.posted m (by simp [hposted])
  refine ⟨(h.save.clear hposted).free ?_ (h.save.lt_allocated hslot),
    (h.linked.eraseP _).free fun n hn => h.linked.ne_of_mem_eraseP_addr hn⟩
  exact Function.update_self _ _ _

end Csi

end GwWeb.SaveNodes
