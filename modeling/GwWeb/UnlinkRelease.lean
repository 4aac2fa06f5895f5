import GwWeb.DmaHandler
import GwWeb.MosquittoBroker

/-!
The four routines that unlink a node and release it. Each keeps the result in
the cursor of its loop, so that without a match it releases the last node of
the list, which stays linked.
-/

namespace GwWeb.UnlinkRelease

open FirstMatch
open GwWeb.WebCommon
open GwWeb.Server
open GwWeb.MosquittoBroker
open GwWeb.DmaHandler

/-- `del_user_node_in_list` unlinks, counts off and returns the first node of the
connection, or nothing. -/
structure DelUserNodeExact (connfd : Int) (g : GServerPara) : Prop where
  list : (delUserNodeInList connfd g).1.userSessionNodeHead =
    g.userSessionNodeHead.eraseP fun n => n.connfd = connfd
  count : (delUserNodeInList connfd g).1.userSessionCnt =
    if g.userSessionNodeHead.any fun n => n.connfd = connfd then g.userSessionCnt - 1
    else g.userSessionCnt
  returned : (delUserNodeInList connfd g).2 =
    g.userSessionNodeHead.find? fun n => n.connfd = connfd

/-- The CSI node of the connection goes, once, and nothing else. -/
structure StopCsiExact (connfd rc : Int) (g : GDmaPara) : Prop where
  list : (stopCsiStateExternal connfd rc g).csiUserNodeHead =
    g.csiUserNodeHead.eraseP fun n => n.connfd = connfd
  count : (stopCsiStateExternal connfd rc g).csiUserCnt =
    if g.csiUserNodeHead.any fun n => n.connfd = connfd then g.csiUserCnt - 1 else g.csiUserCnt
  freed : (stopCsiStateExternal connfd rc g).csiFreed =
    ((g.csiUserNodeHead.find? fun n => n.connfd = connfd).map UserNode.addr).toList ++ g.csiFreed

structure StopConstellationExact (connfd rc : Int) (g : GDmaPara) : Prop where
  list : (stopConstellationExternal connfd rc g).constellUserNodeHead =
    g.constellUserNodeHead.eraseP fun n => n.connfd = connfd
  count : (stopConstellationExternal connfd rc g).constellationUserCnt =
    if g.constellUserNodeHead.any fun n => n.connfd = connfd then g.constellationUserCnt - 1
    else g.constellationUserCnt
  freed : (stopConstellationExternal connfd rc g).constellFreed =
    ((g.constellUserNodeHead.find? fun n => n.connfd = connfd).map UserNode.addr).toList ++
      g.constellFreed

/-- What becomes of the nodes when `close_rssi_state_external` releases the node
found, if any: freed, or marked while its write component is in use. -/
def Released (n : Option UserNode) (g g' : GBrokerPara) : Prop :=
  match n with
  | none => g'.freed = g.freed ∧ g'.confirmDelete = g.confirmDelete
  | some n =>
      if (g.save.fileT n.addr).isSome then
        g'.freed = g.freed ∧ g'.confirmDelete = Function.update g.confirmDelete n.addr 1
      else g'.freed = n.addr :: g.freed ∧ g'.confirmDelete = g.confirmDelete

structure CloseRssiExact (connfd : Int) (g g' : GBrokerPara) : Prop where
  list : g'.rssiUserNodeHead = g.rssiUserNodeHead.eraseP fun n => n.connfd = connfd
  count : g'.rssiUserCnt =
    if g.rssiUserNodeHead.any fun n => n.connfd = connfd then g.rssiUserCnt - 1 else g.rssiUserCnt
  nodes : Released (g.rssiUserNodeHead.find? fun n => n.connfd = connfd) g g'

/-- The condition: nothing to look at, or a node of the connection. -/
def EmptyOrListed (connfd : Int) (connfds : List Int) : Prop := connfds = [] ∨ connfd ∈ connfds

instance (connfd : Int) (connfds : List Int) : Decidable (EmptyOrListed connfd connfds) :=
  inferInstanceAs (Decidable (_ ∨ _))

theorem any_connfd_iff {α : Type*} (key : α → Int) (connfd : Int) (l : List α) :
    (l.any fun n => key n = connfd) = true ↔ connfd ∈ l.map key := by
  simp

theorem cursor_exact_iff {α : Type*} (key : α → Int) (connfd : Int) (l : List α) :
    (unlinkLoop (fun n => key n = connfd) l none).cursor = l.find? (fun n => key n = connfd) ↔
      EmptyOrListed connfd (l.map key) := by
  rw [unlinkLoop_cursor_eq_find_iff, any_connfd_iff, EmptyOrListed, List.map_eq_nil_iff]

theorem toList_map_append_inj {α : Type*} {x y : Option α} (f : α → Nat) (l : List Nat)
    (hxy : x = y ∨ (x.isSome ∧ y = none)) :
    (x.map f).toList ++ l = (y.map f).toList ++ l ↔ x = y := by
  rcases hxy with rfl | ⟨hx, rfl⟩
  · simp
  · obtain ⟨a, rfl⟩ := Option.isSome_iff_exists.mp hx
    simp

theorem cursor_cases {α : Type*} (p : α → Bool) (l : List α) :
    (unlinkLoop p l none).cursor = l.find? p ∨
      ((unlinkLoop p l none).cursor.isSome ∧ l.find? p = none) := by
  cases hany : l.any p with
  | true => exact .inl (unlinkLoop_cursor_of_any hany none)
  | false =>
      have hfind := find?_eq_none_of_not_any (p := p) (l := l) (by simp [hany])
      rw [unlinkLoop_cursor_of_not_any hany, hfind]
      cases l with
      | nil => exact .inl rfl
      | cons x xs => exact .inr ⟨by simp [List.getLast?_cons], rfl⟩

theorem delUserNode_exact_iff (connfd : Int) (g : GServerPara) :
    DelUserNodeExact connfd g ↔
      EmptyOrListed connfd (g.userSessionNodeHead.map UserSessionNode.connfd) := by
  rw [← cursor_exact_iff]
  refine ⟨fun h => h.returned, fun h => ⟨?_, ?_, h⟩⟩
  · exact unlinkLoop_list _ _ _
  · simp only [delUserNodeInList, unlinkLoop_found]

theorem stopCsi_exact_iff (connfd rc : Int) (g : GDmaPara) :
    StopCsiExact connfd rc g ↔ EmptyOrListed connfd (g.csiUserNodeHead.map UserNode.connfd) := by
  rw [← cursor_exact_iff, ← toList_map_append_inj UserNode.addr g.csiFreed (cursor_cases _ _)]
  constructor
  · intro h
    rw [← h.freed, stopCsiStateExternal_eq]
  · intro h
    refine ⟨?_, ?_, ?_⟩ <;> rw [stopCsiStateExternal_eq]
    · exact unlinkLoop_list _ _ _
    · simp only [unlinkLoop_found]
    · exact h

theorem stopConstellation_exact_iff (connfd rc : Int) (g : GDmaPara) :
    StopConstellationExact connfd rc g ↔
      EmptyOrListed connfd (g.constellUserNodeHead.map UserNode.connfd) := by
  rw [← cursor_exact_iff,
    ← toList_map_append_inj UserNode.addr g.constellFreed (cursor_cases _ _)]
  constructor
  · intro h
    rw [← h.freed, stopConstellationExternal_eq]
  · intro h
    refine ⟨?_, ?_, ?_⟩ <;> rw [stopConstellationExternal_eq]
    · exact unlinkLoop_list _ _ _
    · simp only [unlinkLoop_found]
    · exact h

/-- The condition for `close_rssi_state_external`: its `assert` must hold too. -/
def EmptyOrClosable (connfd : Int) (g : GBrokerPara) : Prop :=
  g.rssiUserNodeHead = [] ∨
    ∃ n, g.rssiUserNodeHead.find? (fun n => n.connfd = connfd) = some n ∧
      g.confirmDelete n.addr = 0

theorem releaseNode_some {n : UserNode} {g g' : GBrokerPara}
    (h : releaseNode (some n) g = .ok g') :
    g.confirmDelete n.addr = 0 ∧ Released (some n) g g' ∧
      g'.rssiUserNodeHead = g.rssiUserNodeHead ∧ g'.rssiUserCnt = g.rssiUserCnt := by
  simp only [releaseNode] at h
  split at h
  · rename_i hzero
    refine ⟨hzero, ?_⟩
    cases hfile : g.save.fileT n.addr with
    | none =>
        simp only [hfile, Except.ok.injEq] at h
        subst h
        exact ⟨by simp [Released, hfile], rfl, rfl⟩
    | some t =>
        simp only [hfile, Except.ok.injEq] at h
        subst h
        exact ⟨by simp [Released, hfile], rfl, rfl⟩
  · cases h

theorem releaseNode_unmarked {n : UserNode} {g : GBrokerPara} (h : g.confirmDelete n.addr = 0) :
    ∃ g', releaseNode (some n) g = .ok g' := by
  simp only [releaseNode, if_pos h]
  cases g.save.fileT n.addr with
  | none => exact ⟨_, rfl⟩
  | some t => exact ⟨_, rfl⟩

theorem not_released_none {n : UserNode} {g g' : GBrokerPara} (hzero : g.confirmDelete n.addr = 0)
    (h : Released (some n) g g') : ¬ Released none g g' := by
  rintro ⟨hfreed, hmarks⟩
  simp only [Released] at h
  split at h
  · have hmark := congrFun (hmarks.symm.trans h.2) n.addr
    simp [hzero] at hmark
  · simpa using hfreed.symm.trans h.1

theorem closed_nodes (reply : TransferReply) (g : GBrokerPara) :
    (closed reply g).rssiUserNodeHead = g.rssiUserNodeHead ∧
      (closed reply g).rssiUserCnt = g.rssiUserCnt ∧ (closed reply g).freed = g.freed ∧
      (closed reply g).confirmDelete = g.confirmDelete := by
  unfold closed
  split <;> exact ⟨rfl, rfl, rfl, rfl⟩

theorem unlinkRssi_exact_iff (connfd : Int) (g : GBrokerPara) :
    (∃ g', unlinkRssiUserNode connfd g = .ok g' ∧ CloseRssiExact connfd g g') ↔
      EmptyOrClosable connfd g := by
  unfold unlinkRssiUserNode EmptyOrClosable
  simp only [unlinkLoop_list, unlinkLoop_found]
  cases hany : g.rssiUserNodeHead.any (fun n => n.connfd = connfd) with
  | true =>
      obtain ⟨n, hn⟩ := Option.isSome_iff_exists.mp (List.find?_isSome.mpr
        (List.any_eq_true.mp hany))
      have hne : g.rssiUserNodeHead ≠ [] := by
        rintro hnil
        simp [hnil] at hany
      rw [unlinkLoop_cursor_of_any hany, hn]
      constructor
      · rintro ⟨g', hg', -⟩
        exact .inr ⟨n, rfl, (releaseNode_some hg').1⟩
      · rintro (hnil | ⟨m, hm, hzero⟩)
        · exact absurd hnil hne
        · obtain rfl := Option.some.inj hm
          obtain ⟨g', hg'⟩ := releaseNode_unmarked (g := { g with
            rssiUserNodeHead := g.rssiUserNodeHead.eraseP fun n => n.connfd = connfd
            rssiUserCnt := if true = true then g.rssiUserCnt - 1 else g.rssiUserCnt }) hzero
          obtain ⟨-, hreleased, hlist, hcount⟩ := releaseNode_some hg'
          exact ⟨g', hg', hlist, by rw [hcount, hany], by rw [hn]; exact hreleased⟩
  | false =>
      have hfind := find?_eq_none_of_not_any (by simp [hany] :
        ¬ (g.rssiUserNodeHead.any fun n => n.connfd = connfd) = true)
      rw [unlinkLoop_cursor_of_not_any hany]
      cases hlast : g.rssiUserNodeHead.getLast? with
      | none =>
          have hnil := List.getLast?_eq_none_iff.mp hlast
          refine ⟨fun _ => .inl hnil, fun _ => ⟨_, rfl, ?_⟩⟩
          exact ⟨rfl, by rw [hany], by rw [hfind]; exact ⟨rfl, rfl⟩⟩
      | some n =>
          -- the cursor stands on a node of another connection, which is released
          have hne : g.rssiUserNodeHead ≠ [] := by
            intro hnil
            simp [hnil] at hlast
          simp only [hne, hfind, reduceCtorEq, false_and, exists_false, or_self, iff_false]
          rintro ⟨g', hg', hexact⟩
          obtain ⟨hzero, hreleased, -, -⟩ := releaseNode_some hg'
          have hnodes := hexact.nodes
          rw [hfind] at hnodes
          have hsome : Released (some n) g g' := hreleased
          exact not_released_none hzero hsome hnodes

theorem closeRssi_exact_iff (connfd ret len : Int) (stat : String) (g : GBrokerPara) :
    (∃ g', closeRssiStateExternal connfd ⟨ret, len, some stat⟩ g = .ok g' ∧
      CloseRssiExact connfd g g') ↔ EmptyOrClosable connfd g := by
  rw [← unlinkRssi_exact_iff]
  constructor
  · rintro ⟨g', hg', hexact⟩
    obtain ⟨g₁, hg₁, rfl, -⟩ := closeRssiStateExternal_eq_ok_iff.mp hg'
    obtain ⟨hlist, hcount, hfreed, hmarks⟩ := closed_nodes ⟨ret, len, some stat⟩ g₁
    refine ⟨g₁, hg₁, hlist ▸ hexact.list, hcount ▸ hexact.count, ?_⟩
    have hnodes := hexact.nodes
    unfold Released at hnodes ⊢
    rwa [hfreed, hmarks] at hnodes
  · rintro ⟨g₁, hg₁, hexact⟩
    obtain ⟨hlist, hcount, hfreed, hmarks⟩ := closed_nodes ⟨ret, len, some stat⟩ g₁
    refine ⟨closed ⟨ret, len, some stat⟩ g₁, closeRssiStateExternal_eq_ok_iff.mpr
      ⟨g₁, hg₁, rfl, fun _ _ => rfl⟩, hlist ▸ hexact.list, hcount ▸ hexact.count, ?_⟩
    have hnodes := hexact.nodes
    unfold Released at hnodes ⊢
    rwa [hfreed, hmarks]

/-- The four routines act on the requested connection only, exactly when their
list is empty or holds a node of it (for RSSI, one not yet marked). -/
theorem unlink_and_release_exact_iff (connfd rc ret len : Int) (stat : String)
    (server : GServerPara) (broker : GBrokerPara) (dma : GDmaPara) :
    (DelUserNodeExact connfd server ↔
        EmptyOrListed connfd (server.userSessionNodeHead.map UserSessionNode.connfd)) ∧
      (StopCsiExact connfd rc dma ↔
        EmptyOrListed connfd (dma.csiUserNodeHead.map UserNode.connfd)) ∧
      (StopConstellationExact connfd rc dma ↔
        EmptyOrListed connfd (dma.constellUserNodeHead.map UserNode.connfd)) ∧
      ((∃ g', closeRssiStateExternal connfd ⟨ret, len, some stat⟩ broker = .ok g' ∧
          CloseRssiExact connfd broker g') ↔
        EmptyOrClosable connfd broker) :=
  ⟨delUserNode_exact_iff connfd server, stopCsi_exact_iff connfd rc dma,
    stopConstellation_exact_iff connfd rc dma, closeRssi_exact_iff connfd ret len stat broker⟩

/-- Connection 7 started CSI and connection 8 did not: `stop_csi_state_external`
for 8 frees the node of 7 and leaves it in the list. -/
theorem stop_csi_frees_node_of_other_user :
    ∃ g₀ g, createDmaHandler true = some g₀ ∧ g = (startCsiStateExternal 7 ⟨0, 0⟩ g₀).2 ∧
      (stopCsiStateExternal 8 0 g).csiUserNodeHead = [⟨0, 7⟩] ∧
      (stopCsiStateExternal 8 0 g).csiFreed = [0] ∧ ¬ StopCsiExact 8 0 g := by
  refine ⟨_, _, rfl, rfl, rfl, rfl, ?_⟩
  rw [stopCsi_exact_iff]
  decide

end GwWeb.UnlinkRelease
