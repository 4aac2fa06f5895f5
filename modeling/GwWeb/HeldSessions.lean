import GwWeb.QueueLifecycle
import GwWeb.SessionThreads

/-!
The sessions that the threads hold, and the stage that each of them is at.
-/

namespace GwWeb.SessionTeardown

open FirstMatch
open QueueLifecycle
open GwWeb.Server hiding addNewUserNodeToList
open GwWeb.SessionThreads

/-- A session by its address: not there yet, in the list, or freed. -/
def stage (s : State) (a : Nat) : Stage :=
  if a ∈ s.server.released then .gone
  else if a ∈ connected s.server then .present
  else .absent

/-- What is allocated, open and in the list fits together. -/
structure Held (s : State) : Prop where
  nodes : (s.nodes.map Node.addr).Nodup
  bound : ∀ n ∈ s.nodes, n.addr < s.server.allocated
  connfds : (s.nodes.map Node.connfd).Nodup
  opened : ∀ n ∈ s.nodes, n.connfd ∈ numbers s
  interest : ∀ i ∈ s.interest, i.connfd ∈ numbers s
  sessions : (connected s.server).Nodup
  listed : ∀ u ∈ s.server.userSessionNodeHead,
    ∃ n ∈ s.nodes, n.addr = u.addr ∧ n.connfd = u.connfd
  released : s.server.released.Nodup
  freed : ∀ a ∈ s.server.released, a < s.server.allocated ∧ a ∉ s.nodes.map Node.addr

variable {s s' : State} {a : Nat} {n : Node} {u : UserSessionNode} {connfd : Int}

theorem stage_eq_gone_iff : stage s a = .gone ↔ a ∈ s.server.released := by
  unfold stage
  split
  · simp_all
  · split <;> simp_all

theorem stage_eq_present (h : stage s a = .present) : a ∈ connected s.server := by
  by_contra hout
  simp only [stage, hout, if_false] at h
  split at h <;> cases h

theorem stage_eq_absent (h : stage s a = .absent) :
    a ∉ connected s.server ∧ a ∉ s.server.released := by
  constructor
  · intro hin
    simp only [stage, hin, if_true] at h
    split at h <;> cases h
  · intro hreleased
    rw [stage_eq_gone_iff.mpr hreleased] at h
    cases h

theorem Held.same (h : Held s) (hsame : SameSessions s s') : Held s' := by
  obtain ⟨hallocated, hhead, hreleased, hnodes, hnumbers, hinterest⟩ := hsame
  constructor
  · exact hnodes ▸ h.nodes
  · rw [hnodes, hallocated]
    exact h.bound
  · exact hnodes ▸ h.connfds
  · intro n hn
    exact hnumbers _ (h.opened n (hnodes ▸ hn))
  · intro i hi
    rcases hinterest i hi with hold | hnew
    · exact hnumbers _ (h.interest i hold)
    · exact hnew
  · rw [connected, hhead]
    exact h.sessions
  · rw [hhead, hnodes]
    exact h.listed
  · exact hreleased ▸ h.released
  · rw [hreleased, hallocated, hnodes]
    exact h.freed

theorem stage_same (h : SameSessions s s') (a : Nat) : stage s' a = stage s a := by
  have hlist : connected s'.server = connected s.server := by rw [connected, connected, h.head]
  simp only [stage, hlist, h.released]

theorem Held.newUserNode (h : Held s) (ptr : Nat) (hopened : connfd ∈ numbers s)
    (hfree : connfd ∉ s.nodes.map Node.connfd) : Held (newUserNode ptr connfd s).2 := by
  have hbound : ∀ a ∈ s.nodes.map Node.addr, a < s.server.allocated := by
    intro a ha
    obtain ⟨n, hn, rfl⟩ := List.mem_map.mp ha
    exact h.bound n hn
  constructor
  · simp only [SessionThreads.newUserNode, List.map_append, List.map_cons, List.map_nil]
    refine List.nodup_append.mpr ⟨h.nodes, List.nodup_singleton _, ?_⟩
    intro a ha b hb
    rw [List.mem_singleton.mp hb]
    exact Nat.ne_of_lt (hbound a ha)
  · intro n hn
    rcases List.mem_append.mp hn with hold | hnew
    · exact Nat.lt_succ_of_lt (h.bound n hold)
    · rw [List.mem_singleton.mp hnew]
      exact Nat.lt_succ_self _
  · simp only [SessionThreads.newUserNode, List.map_append, List.map_cons, List.map_nil]
    refine List.nodup_append.mpr ⟨h.connfds, List.nodup_singleton _, ?_⟩
    rintro a ha b hb rfl
    exact hfree (List.mem_singleton.mp hb ▸ ha)
  · intro n hn
    rcases List.mem_append.mp hn with hold | hnew
    · exact h.opened n hold
    · rw [List.mem_singleton.mp hnew]
      exact hopened
  · exact h.interest
  · exact h.sessions
  · intro u hu
    obtain ⟨n, hn, hsame⟩ := h.listed u hu
    exact ⟨n, List.mem_append_left _ hn, hsame⟩
  · exact h.released
  · intro a ha
    obtain ⟨hlt, hnot⟩ := h.freed a ha
    refine ⟨Nat.lt_succ_of_lt hlt, ?_⟩
    simp only [SessionThreads.newUserNode, List.map_append, List.map_cons, List.map_nil,
      List.mem_append, List.mem_singleton]
    rintro (hold | rfl)
    · exact hnot hold
    · exact Nat.lt_irrefl _ hlt

theorem connected_addNewUserNodeToList (n : Node) (g : GServerPara) :
    connected (addNewUserNodeToList n g) = connected g ++ [n.addr] := by
  simp [connected, addNewUserNodeToList]

theorem stage_enter_self (hunreleased : n.addr ∉ s.server.released) :
    stage { s with server := SessionThreads.addNewUserNodeToList n s.server } n.addr =
      .present := by
  have hreleased : (SessionThreads.addNewUserNodeToList n s.server).released =
      s.server.released := rfl
  simp [stage, connected_addNewUserNodeToList, hreleased, hunreleased]

theorem stage_enter_of_ne (hne : a ≠ n.addr) :
    stage { s with server := SessionThreads.addNewUserNodeToList n s.server } a = stage s a := by
  have hreleased : (SessionThreads.addNewUserNodeToList n s.server).released =
      s.server.released := rfl
  simp [stage, connected_addNewUserNodeToList, hreleased, hne]

theorem Held.enter (h : Held s) (hn : n ∈ s.nodes) (hnew : n.addr ∉ connected s.server) :
    Held { s with server := addNewUserNodeToList n s.server } where
  nodes := h.nodes
  bound := h.bound
  connfds := h.connfds
  opened := h.opened
  interest := h.interest
  sessions := by
    rw [connected_addNewUserNodeToList]
    refine List.nodup_append.mpr ⟨h.sessions, List.nodup_singleton _, ?_⟩
    rintro a ha b hb rfl
    exact hnew (List.mem_singleton.mp hb ▸ ha)
  listed := by
    intro u hu
    rcases List.mem_append.mp hu with hold | hlast
    · exact h.listed u hold
    · rw [List.mem_singleton.mp hlast]
      exact ⟨n, hn, rfl, rfl⟩
  released := h.released
  freed := h.freed

theorem Held.eq_of_addr (h : Held s) {n n' : Node} (hn : n ∈ s.nodes) (hn' : n' ∈ s.nodes)
    (haddr : n.addr = n'.addr) : n = n' :=
  List.inj_on_of_nodup_map h.nodes hn hn' haddr

theorem Held.eq_of_connfd (h : Held s) {n n' : Node} (hn : n ∈ s.nodes) (hn' : n' ∈ s.nodes)
    (hconnfd : n.connfd = n'.connfd) : n = n' :=
  List.inj_on_of_nodup_map h.connfds hn hn' hconnfd

theorem Held.found (h : Held s) (hn : n ∈ s.nodes) (hlisted : n.addr ∈ connected s.server) :
    ∃ u, findUserNodeByConnfd n.connfd s.server = some u ∧ u.addr = n.addr ∧
      u.connfd = n.connfd := by
  obtain ⟨v, hv, haddr⟩ := List.mem_map.mp hlisted
  obtain ⟨n', hn', haddr', hconnfd'⟩ := h.listed v hv
  obtain rfl := h.eq_of_addr hn' hn (haddr'.trans haddr)
  have hsome : (findUserNodeByConnfd n'.connfd s.server).isSome := by
    simp only [findUserNodeByConnfd, List.find?_isSome, decide_eq_true_eq]
    exact ⟨v, hv, hconnfd'.symm⟩
  obtain ⟨u, hu⟩ := Option.isSome_iff_exists.mp hsome
  have hconnfd : u.connfd = n'.connfd := by simpa using List.find?_some hu
  obtain ⟨k, hk, hkaddr, hkconnfd⟩ := h.listed u (List.mem_of_find?_eq_some hu)
  have hkn : k = n' := h.eq_of_connfd hk hn' (hkconnfd.trans hconnfd)
  exact ⟨u, hu, by rw [← hkaddr, hkn], hconnfd⟩

theorem Held.distinct (h : Held s) :
    (s.server.userSessionNodeHead.map UserSessionNode.connfd).Nodup := by
  have hsessions : s.server.userSessionNodeHead.Nodup := List.Nodup.of_map _ h.sessions
  refine (List.nodup_map_iff_inj_on hsessions).mpr fun u hu v hv hsame => ?_
  obtain ⟨n, hn, haddr, hconnfd⟩ := h.listed u hu
  obtain ⟨m, hm, hmaddr, hmconnfd⟩ := h.listed v hv
  have hnm : n = m := h.eq_of_connfd hn hm (hconnfd.trans (hsame.trans hmconnfd.symm))
  exact List.inj_on_of_nodup_map h.sessions hu hv (haddr.symm.trans (hnm ▸ hmaddr))

/-- What `del_user` leaves of a session that it finds. -/
structure Left (u : UserSessionNode) (s s' : State) : Prop where
  held : Held s'
  queue : s'.queue = s.queue
  allocated : s'.server.allocated = s.server.allocated
  nodes : ∀ n ∈ s'.nodes, n ∈ s.nodes ∧ n.addr ≠ u.addr
  gone : stage s' u.addr = .gone
  others : ∀ a, a ≠ u.addr → stage s' a = stage s a

theorem delUser_of_found (hfind : findUserNodeByConnfd connfd s.server = some u) :
    ∃ cnt, delUser connfd s = release u.addr u.connfd { s with server := { s.server with
      userSessionNodeHead := s.server.userSessionNodeHead.eraseP fun n => n.connfd = connfd
      userSessionCnt := cnt } } := by
  have hany : (s.server.userSessionNodeHead.any fun n => n.connfd = connfd) = true := by
    rw [List.any_eq_true]
    have hconnfd : u.connfd = connfd := by simpa using List.find?_some hfind
    exact ⟨u, List.mem_of_find?_eq_some hfind, by simpa using hconnfd⟩
  have hcursor :
      (unlinkLoop (fun n => n.connfd = connfd) s.server.userSessionNodeHead none).cursor =
      some u := (unlinkLoop_cursor_of_any hany none).trans hfind
  simp only [delUser, delUserNodeInList, hcursor, unlinkLoop_list]
  exact ⟨_, rfl⟩

theorem Held.delUser (h : Held s) (hfind : findUserNodeByConnfd connfd s.server = some u) :
    Left u s (delUser connfd s) := by
  obtain ⟨cnt, heq⟩ := delUser_of_found hfind
  rw [heq]
  have hu : u ∈ s.server.userSessionNodeHead := List.mem_of_find?_eq_some hfind
  obtain ⟨n, hn, haddr, hconnfd⟩ := h.listed u hu
  have hkeeps : ∀ m ∈ s.nodes, m.addr ≠ u.addr → m.connfd ≠ u.connfd := by
    intro m hm hne hsame
    exact hne (by rw [h.eq_of_connfd hm hn (hsame.trans hconnfd.symm), haddr])
  have hlist : ∀ a, a ∈ (s.server.userSessionNodeHead.eraseP fun n => n.connfd = connfd).map
      UserSessionNode.addr ↔ a ∈ connected s.server ∧ a ≠ u.addr :=
    fun a => mem_map_eraseP_iff h.sessions hfind
  have hunreleased : u.addr ∉ s.server.released := by
    intro hreleased
    exact (h.freed u.addr hreleased).2 (haddr ▸ List.mem_map_of_mem hn)
  refine ⟨⟨?_, ?_, ?_, ?_, ?_, ?_, ?_, ?_, ?_⟩, rfl, rfl, ?_, ?_, ?_⟩
  · exact h.nodes.sublist (List.filter_sublist.map _)
  · intro m hm
    exact h.bound m (List.mem_of_mem_filter hm)
  · exact h.connfds.sublist (List.filter_sublist.map _)
  · intro m hm
    obtain ⟨hm, hne⟩ := List.mem_filter.mp hm
    exact mem_numbers_close.mpr ⟨h.opened m hm, hkeeps m hm (by simpa using hne)⟩
  · intro i hi
    obtain ⟨hi, hne⟩ := List.mem_filter.mp hi
    exact mem_numbers_close.mpr ⟨h.interest i hi, by simpa using hne⟩
  · exact h.sessions.sublist (List.eraseP_sublist.map _)
  · intro v hv
    have hother : v.addr ≠ u.addr := ((hlist v.addr).mp (List.mem_map_of_mem hv)).2
    obtain ⟨m, hm, hmaddr, hmconnfd⟩ := h.listed v (List.mem_of_mem_eraseP hv)
    exact ⟨m, List.mem_filter.mpr ⟨hm, by simpa [hmaddr] using hother⟩, hmaddr, hmconnfd⟩
  · exact List.nodup_cons.mpr ⟨hunreleased, h.released⟩
  · intro a ha
    rcases List.mem_cons.mp ha with rfl | hold
    · refine ⟨haddr ▸ h.bound n hn, fun hin => ?_⟩
      obtain ⟨m, hm, hsame⟩ := List.mem_map.mp hin
      simp [hsame, release, close] at hm
    · refine ⟨(h.freed a hold).1, fun hin => (h.freed a hold).2 ?_⟩
      obtain ⟨m, hm, rfl⟩ := List.mem_map.mp hin
      exact List.mem_map_of_mem (List.mem_of_mem_filter hm)
  · intro m hm
    obtain ⟨hm, hne⟩ := List.mem_filter.mp hm
    exact ⟨hm, by simpa using hne⟩
  · simp [stage, release, close]
  · intro a hne
    have hsame : a ∈ connected (release u.addr u.connfd { s with server := { s.server with
        userSessionNodeHead := s.server.userSessionNodeHead.eraseP fun n => n.connfd = connfd
        userSessionCnt := cnt } }).server ↔ a ∈ connected s.server :=
      (hlist a).trans (and_iff_left hne)
    simp only [stage, hsame]
    simp [release, close, hne]

end GwWeb.SessionTeardown
