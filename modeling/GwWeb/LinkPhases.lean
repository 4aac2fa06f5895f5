import GwWeb.SessionTeardown

/-!
What the openwrt session depends on: the descriptor that `connect_helloworld`
returned last, the messages about the link, and the deletions in the queue.
-/

namespace GwWeb.LinkPhases

open GwWeb.WebCommon
open GwWeb.Server hiding addNewUserNodeToList
open GwWeb.SessionThreads
open GwWeb.SessionTeardown

def isLink : Msg → Bool
  | .openwrtConnected => true
  | .openwrtDisconnect => true
  | .acceptNewUser _ => false
  | .delDisconnectUser _ => false
  | .request _ => false

def linkMsgs (s : State) : List Msg := s.queue.filter isLink

/-- A message about the link, or a deletion. -/
def watched : Msg → Bool
  | .openwrtConnected => true
  | .openwrtDisconnect => true
  | .delDisconnectUser _ => true
  | .acceptNewUser _ => false
  | .request _ => false

/-- The file has no descriptor. -/
def Closed (k : Nat) (s : State) : Prop := ∀ d ∈ s.opened, d.file ≠ k

/-- The file is closed, or will be with a session whose deletion is queued. -/
def Ending (k : Nat) (s : State) : Prop :=
  Closed k s ∨ ∃ n ∈ s.nodes, ⟨n.connfd, k⟩ ∈ s.opened ∧ .delDisconnectUser n.addr ∈ s.queue

/-- The list holds a session for the file. -/
def SessionFor (k : Nat) (s : State) : Prop :=
  ∃ u ∈ s.server.userSessionNodeHead, ⟨u.connfd, k⟩ ∈ s.opened

/-- The session for the file is in the list, and no deletion of it is queued. -/
structure Standing (n : Node) (k : Nat) (s : State) : Prop where
  live : n ∈ s.nodes
  listed : n.addr ∈ connected s.server
  connfd : n.connfd = s.server.openwrtConnfd
  opened : ⟨n.connfd, k⟩ ∈ s.opened
  kept : .delDisconnectUser n.addr ∉ s.queue

/-- Where the last file that `connect_helloworld` returned is on its way. -/
inductive Phase (k : Nat) (s : State) : Prop where
  | connecting (link : s.server.openwrtLink = 1) (posted : linkMsgs s = [.openwrtConnected])
      (opened : ⟨s.server.openwrtConnfd, k⟩ ∈ s.opened)
      (unused : s.server.openwrtConnfd ∉ s.nodes.map Node.connfd)
      (peer : k ∉ s.log.peerClosed)
  | up (link : s.server.openwrtLink = 1) (posted : linkMsgs s = []) (n : Node)
      (standing : Standing n k s) (peer : k ∉ s.log.peerClosed)
  | lost (link : s.server.openwrtLink = 1) (posted : linkMsgs s = [])
      (peer : k ∈ s.log.peerClosed) (ending : Ending k s)
  | stopping (link : s.server.openwrtLink = 0) (posted : linkMsgs s = [.openwrtDisconnect])
      (n : Node) (standing : Standing n k s)
  | down (link : s.server.openwrtLink = 0) (posted : linkMsgs s = []) (ending : Ending k s)

/-- Files are numbered as they are opened. -/
structure Filed (s : State) : Prop where
  bound : ∀ d ∈ s.opened, d.file < s.files
  connects : ∀ k ∈ s.log.connects, k < s.files
  peerClosed : ∀ k ∈ s.log.peerClosed, k < s.files
  sole : ∀ d ∈ s.opened, ∀ d' ∈ s.opened, d.file ∈ s.log.connects → d.file = d'.file → d = d'

/-- Nothing is closed, freed or taken out of the queue before its deletion. -/
structure Grows (s s' : State) : Prop where
  files : s.files ≤ s'.files
  opened : ∀ d ∈ s.opened, d ∈ s'.opened
  later : ∀ d ∈ s'.opened, d ∈ s.opened ∨ s.files ≤ d.file ∧ d.file < s'.files
  nodes : ∀ n ∈ s.nodes, n ∈ s'.nodes
  deletions : ∀ a, .delDisconnectUser a ∈ s.queue → .delDisconnectUser a ∈ s'.queue

/-- Moreover nothing happens to the link. -/
structure Quiet (s s' : State) : Prop where
  files : s.files ≤ s'.files
  opened : ∀ d ∈ s.opened, d ∈ s'.opened
  later : ∀ d ∈ s'.opened, d ∈ s.opened ∨ s.files ≤ d.file ∧ d.file < s'.files
  nodes : ∀ n ∈ s.nodes, n ∈ s'.nodes
  newer : ∀ n ∈ s'.nodes, n ∈ s.nodes ∨ n.connfd ∉ numbers s
  listed : ∀ a ∈ connected s.server, a ∈ connected s'.server
  link : s'.server.openwrtLink = s.server.openwrtLink
  connfd : s'.server.openwrtConnfd = s.server.openwrtConnfd
  connects : s'.log.connects = s.log.connects
  peerClosed : s'.log.peerClosed = s.log.peerClosed
  queue : s'.queue.filter watched = s.queue.filter watched

/-- The handler of `MSG_DEL_DISCONNECT_USER` deleted the session `n`. -/
structure Deleted (n : Node) (s s' : State) : Prop where
  live : n ∈ s.nodes
  queue : s.queue = .delDisconnectUser n.addr :: s'.queue
  files : s'.files = s.files
  opened : ∀ d, d ∈ s'.opened ↔ d ∈ s.opened ∧ d.number ≠ n.connfd
  nodes : ∀ m, m ∈ s'.nodes ↔ m ∈ s.nodes ∧ m.addr ≠ n.addr
  others : ∀ a ∈ connected s.server, a ≠ n.addr → a ∈ connected s'.server
  link : s'.server.openwrtLink = s.server.openwrtLink
  connfd : s'.server.openwrtConnfd = s.server.openwrtConnfd
  connects : s'.log.connects = s.log.connects
  peerClosed : s'.log.peerClosed = s.log.peerClosed

variable {s s' : State} {k : Nat} {n : Node} {queue : List Msg}

theorem linkMsgs_eq_filter_watched (s : State) :
    linkMsgs s = (s.queue.filter watched).filter isLink := by
  rw [linkMsgs, List.filter_filter]
  refine List.filter_congr fun m _ => ?_
  cases m <;> rfl

theorem del_mem_iff_filter_watched (a : Nat) (s : State) :
    .delDisconnectUser a ∈ s.queue ↔ .delDisconnectUser a ∈ s.queue.filter watched := by
  simp [List.mem_filter, watched]

theorem Quiet.linkMsgs (h : Quiet s s') : linkMsgs s' = linkMsgs s := by
  rw [linkMsgs_eq_filter_watched, h.queue, ← linkMsgs_eq_filter_watched]

theorem Quiet.del_mem_iff (h : Quiet s s') (a : Nat) :
    .delDisconnectUser a ∈ s'.queue ↔ .delDisconnectUser a ∈ s.queue := by
  rw [del_mem_iff_filter_watched, h.queue, ← del_mem_iff_filter_watched]

theorem Quiet.grows (h : Quiet s s') : Grows s s' where
  files := h.files
  opened := h.opened
  later := h.later
  nodes := h.nodes
  deletions := fun a => (h.del_mem_iff a).mpr

theorem Grows.post {m : Msg} (hfiles : s'.files = s.files) (hopened : s'.opened = s.opened)
    (hnodes : s'.nodes = s.nodes) (hqueue : s'.queue = s.queue ++ [m]) : Grows s s' where
  files := Nat.le_of_eq hfiles.symm
  opened := fun _ hd => hopened ▸ hd
  later := fun _ hd => .inl (hopened ▸ hd)
  nodes := fun _ hn => hnodes ▸ hn
  deletions := fun _ ha => hqueue ▸ List.mem_append_left _ ha

theorem Quiet.refl (s : State) : Quiet s s where
  files := Nat.le_refl _
  opened := fun _ hd => hd
  later := fun _ hd => .inl hd
  nodes := fun _ hn => hn
  newer := fun _ hn => .inl hn
  listed := fun _ ha => ha
  link := rfl
  connfd := rfl
  connects := rfl
  peerClosed := rfl
  queue := rfl

theorem Closed.grows (h : Closed k s) (hgrows : Grows s s') (hk : k < s.files) : Closed k s' := by
  intro d hd
  rcases hgrows.later d hd with hold | hnew
  · exact h d hold
  · omega

theorem Ending.grows (h : Ending k s) (hgrows : Grows s s') (hk : k < s.files) : Ending k s' := by
  rcases h with hclosed | ⟨n, hn, hopened, hdel⟩
  · exact .inl (hclosed.grows hgrows hk)
  · exact .inr ⟨n, hgrows.nodes n hn, hgrows.opened _ hopened, hgrows.deletions _ hdel⟩

theorem Standing.quiet (h : Standing n k s) (hquiet : Quiet s s') : Standing n k s' where
  live := hquiet.nodes n h.live
  listed := hquiet.listed _ h.listed
  connfd := hquiet.connfd ▸ h.connfd
  opened := hquiet.opened _ h.opened
  kept := fun hdel => h.kept ((hquiet.del_mem_iff _).mp hdel)

theorem Phase.quiet (h : Phase k s) (hquiet : Quiet s s') (hk : k < s.files) : Phase k s' := by
  have hlink := hquiet.link
  have hposted := hquiet.linkMsgs
  have hpeer := hquiet.peerClosed
  cases h with
  | connecting link posted opened unused peer =>
      refine .connecting (hlink.trans link) (hposted.trans posted) ?_ ?_ (hpeer ▸ peer)
      · rw [hquiet.connfd]
        exact hquiet.opened _ opened
      · rw [hquiet.connfd]
        intro hin
        obtain ⟨n, hn, hsame⟩ := List.mem_map.mp hin
        rcases hquiet.newer n hn with hold | hnew
        · exact unused (hsame ▸ List.mem_map_of_mem hold)
        · exact hnew (hsame ▸ List.mem_map_of_mem opened)
  | up link posted n standing peer =>
      exact .up (hlink.trans link) (hposted.trans posted) n (standing.quiet hquiet) (hpeer ▸ peer)
  | lost link posted peer ending =>
      exact .lost (hlink.trans link) (hposted.trans posted) (hpeer ▸ peer)
        (ending.grows hquiet.grows hk)
  | stopping link posted n standing =>
      exact .stopping (hlink.trans link) (hposted.trans posted) n (standing.quiet hquiet)
  | down link posted ending =>
      exact .down (hlink.trans link) (hposted.trans posted) (ending.grows hquiet.grows hk)

theorem Filed.quiet (h : Filed s) (hquiet : Quiet s s') : Filed s' := by
  have hlt : ∀ k ∈ s'.log.connects, k < s.files := by
    rw [hquiet.connects]
    exact h.connects
  have hold : ∀ d ∈ s'.opened, d.file ∈ s'.log.connects → d ∈ s.opened := by
    intro d hd hconnect
    rcases hquiet.later d hd with hold | hnew
    · exact hold
    · exact absurd (hlt _ hconnect) (Nat.not_lt.mpr hnew.1)
  constructor
  · intro d hd
    rcases hquiet.later d hd with hold | hnew
    · exact Nat.lt_of_lt_of_le (h.bound d hold) hquiet.files
    · exact hnew.2
  · intro k hk
    exact Nat.lt_of_lt_of_le (hlt k hk) hquiet.files
  · intro k hk
    rw [hquiet.peerClosed] at hk
    exact Nat.lt_of_lt_of_le (h.peerClosed k hk) hquiet.files
  · intro d hd d' hd' hconnect hfile
    exact h.sole d (hold d hd hconnect) d' (hold d' hd' (hfile ▸ hconnect))
      (hquiet.connects ▸ hconnect) hfile

theorem Ending.deleted (h : Ending k s) (hdeleted : Deleted n s s') (hheld : Held s)
    (hfiled : Filed s) (hk : k ∈ s.log.connects) : Ending k s' := by
  rcases h with hclosed | ⟨m, hm, hopened, hdel⟩
  · exact .inl fun d hd => hclosed d ((hdeleted.opened d).mp hd).1
  · rcases eq_or_ne m.addr n.addr with haddr | hne
    · refine .inl fun d hd hfile => ?_
      obtain ⟨hd, hnumber⟩ := (hdeleted.opened d).mp hd
      have hsame : (⟨m.connfd, k⟩ : Descriptor) = d := hfiled.sole _ hopened d hd hk hfile.symm
      exact hnumber (by rw [← hsame, hheld.eq_of_addr hm hdeleted.live haddr])
    · refine .inr ⟨m, (hdeleted.nodes m).mpr ⟨hm, hne⟩, (hdeleted.opened _).mpr ⟨hopened, ?_⟩, ?_⟩
      · intro hconnfd
        exact hne (congrArg Node.addr (hheld.eq_of_connfd hm hdeleted.live hconnfd))
      · rw [hdeleted.queue] at hdel
        simpa [hne] using hdel

theorem Standing.deleted {m : Node} (h : Standing m k s) (hdeleted : Deleted n s s')
    (hheld : Held s) : Standing m k s' := by
  have hne : m.addr ≠ n.addr := by
    intro haddr
    exact h.kept (by simp [hdeleted.queue, haddr])
  refine ⟨(hdeleted.nodes m).mpr ⟨h.live, hne⟩, hdeleted.others _ h.listed hne,
    hdeleted.connfd ▸ h.connfd, (hdeleted.opened _).mpr ⟨h.opened, fun hconnfd => ?_⟩,
    fun hdel => h.kept ?_⟩
  · exact hne (congrArg Node.addr (hheld.eq_of_connfd h.live hdeleted.live hconnfd))
  · rw [hdeleted.queue]
    exact List.mem_cons_of_mem _ hdel

theorem Deleted.linkMsgs (h : Deleted n s s') : linkMsgs s' = linkMsgs s := by
  rw [LinkPhases.linkMsgs, LinkPhases.linkMsgs, h.queue]
  rfl

theorem Phase.deleted (h : Phase k s) (hdeleted : Deleted n s s') (hheld : Held s)
    (hfiled : Filed s) (hk : k ∈ s.log.connects) : Phase k s' := by
  have hlink := hdeleted.link
  have hposted := hdeleted.linkMsgs
  have hpeer := hdeleted.peerClosed
  cases h with
  | connecting link posted opened unused peer =>
      refine .connecting (hlink.trans link) (hposted.trans posted) ?_ ?_ (hpeer ▸ peer)
      · rw [hdeleted.connfd]
        refine (hdeleted.opened _).mpr ⟨opened, fun hnumber => unused ?_⟩
        exact List.mem_map.mpr ⟨n, hdeleted.live, hnumber.symm⟩
      · rw [hdeleted.connfd]
        intro hin
        obtain ⟨m, hm, hsame⟩ := List.mem_map.mp hin
        exact unused (hsame ▸ List.mem_map_of_mem ((hdeleted.nodes m).mp hm).1)
  | up link posted m standing peer =>
      exact .up (hlink.trans link) (hposted.trans posted) m (standing.deleted hdeleted hheld)
        (hpeer ▸ peer)
  | lost link posted peer ending =>
      exact .lost (hlink.trans link) (hposted.trans posted) (hpeer ▸ peer)
        (ending.deleted hdeleted hheld hfiled hk)
  | stopping link posted m standing =>
      exact .stopping (hlink.trans link) (hposted.trans posted) m
        (standing.deleted hdeleted hheld)
  | down link posted ending =>
      exact .down (hlink.trans link) (hposted.trans posted)
        (ending.deleted hdeleted hheld hfiled hk)

theorem Filed.deleted (h : Filed s) (hdeleted : Deleted n s s') : Filed s' := by
  have hopened : ∀ d ∈ s'.opened, d ∈ s.opened := fun d hd => ((hdeleted.opened d).mp hd).1
  constructor
  · rw [hdeleted.files]
    exact fun d hd => h.bound d (hopened d hd)
  · rw [hdeleted.files, hdeleted.connects]
    exact h.connects
  · rw [hdeleted.files, hdeleted.peerClosed]
    exact h.peerClosed
  · rw [hdeleted.connects]
    exact fun d hd d' hd' => h.sole d (hopened d hd) d' (hopened d' hd')

theorem Standing.found {n : Node} (h : Standing n k s) (hheld : Held s) :
    ∃ u, findUserNodeByConnfd s.server.openwrtConnfd s.server = some u ∧ u.addr = n.addr ∧
      u.connfd = n.connfd :=
  h.connfd ▸ hheld.found h.live h.listed

theorem Standing.sessionFor {n : Node} (h : Standing n k s) (hheld : Held s) :
    SessionFor k s := by
  obtain ⟨u, hfind, -, hconnfd⟩ := hheld.found h.live h.listed
  exact ⟨u, List.mem_of_find?_eq_some hfind, hconnfd ▸ h.opened⟩

theorem Closed.not_sessionFor (h : Closed k s) : ¬ SessionFor k s := by
  rintro ⟨u, -, hopened⟩
  exact h _ hopened rfl

theorem Ending.closed (h : Ending k s) (hqueue : s.queue = []) : Closed k s := by
  rcases h with hclosed | ⟨n, -, -, hdel⟩
  · exact hclosed
  · simp [hqueue] at hdel

/-- Between two messages the last file has a session just while the link is up and the
peer has not closed. -/
theorem Phase.sessionFor_iff (h : Phase k s) (hheld : Held s) (hqueue : s.queue = []) :
    SessionFor k s ↔ s.server.openwrtLink = 1 ∧ k ∉ s.log.peerClosed := by
  have hnone : linkMsgs s = [] := by rw [linkMsgs, hqueue]; rfl
  cases h with
  | connecting link posted | stopping link posted => simp [hnone] at posted
  | up link posted n standing peer =>
      exact iff_of_true (standing.sessionFor hheld) ⟨link, peer⟩
  | lost link posted peer ending =>
      exact iff_of_false (ending.closed hqueue).not_sessionFor fun h => h.2 peer
  | down link posted ending =>
      exact iff_of_false (ending.closed hqueue).not_sessionFor fun h => by simp [link] at h

section Handlers

theorem accept_quiet (h : Held s) {connfd : Int} (hnew : connfd ∉ numbers s) (ptr : Nat) :
    Quiet s (acceptConnection connfd ptr s) := by
  rw [acceptConnection_eq h hnew]
  refine ⟨Nat.le_succ _, fun d hd => List.mem_append_left _ hd, fun d hd => ?_,
    fun n hn => List.mem_append_left _ hn, fun n hn => ?_, fun _ ha => ha, rfl, rfl, rfl, rfl, ?_⟩
  · rcases List.mem_append.mp hd with hold | hnew
    · exact .inl hold
    · rw [List.mem_singleton.mp hnew]
      exact .inr ⟨Nat.le_refl _, Nat.lt_succ_self _⟩
  · rcases List.mem_append.mp hn with hold | hlast
    · exact .inl hold
    · rw [List.mem_singleton.mp hlast]
      exact .inr hnew
  · simp [postMsg, newUserNode, openFile, watched]

theorem quiet_of_same (hserver : s'.server = s.server) (hnodes : s'.nodes = s.nodes)
    (hopened : s'.opened = s.opened) (hfiles : s'.files = s.files)
    (hconnects : s'.log.connects = s.log.connects)
    (hpeerClosed : s'.log.peerClosed = s.log.peerClosed)
    (hqueue : s'.queue.filter watched = s.queue.filter watched) : Quiet s s' where
  files := hfiles ▸ Nat.le_refl _
  opened := fun _ hd => hopened ▸ hd
  later := fun _ hd => .inl (hopened ▸ hd)
  nodes := fun _ hn => hnodes ▸ hn
  newer := fun _ hn => .inl (hnodes ▸ hn)
  listed := fun _ ha => hserver ▸ ha
  link := congrArg GServerPara.openwrtLink hserver
  connfd := congrArg GServerPara.openwrtConnfd hserver
  connects := hconnects
  peerClosed := hpeerClosed
  queue := hqueue

theorem eventFdReady_quiet (hok : eventFdReady s = .ok s') : Quiet s s' := by
  unfold eventFdReady at hok
  split at hok
  · obtain rfl := Except.ok.inj hok
    exact .refl s
  · split at hok
    · obtain rfl := Except.ok.inj hok
      exact .refl s
    · dsimp only at hok
      split at hok
      · cases hok
      · split at hok
        · cases hok
        · split at hok
          · obtain rfl := Except.ok.inj hok
            exact quiet_of_same rfl rfl rfl rfl rfl rfl rfl
          · rename_i s₂ hsome
            obtain ⟨-, -, rfl⟩ := epollCtlAdd_eq_some hsome
            obtain rfl := Except.ok.inj hok
            exact quiet_of_same rfl rfl rfl rfl rfl rfl rfl

theorem handleAcceptNewUser_quiet {addr : Nat} (hqueue : s.queue = .acceptNewUser addr :: queue)
    (hok : handleAcceptNewUser addr { s with queue } = .ok s') : Quiet s s' := by
  obtain ⟨n, -, hok⟩ := bind_eq_ok.mp hok
  obtain rfl := Except.ok.inj hok
  refine ⟨Nat.le_refl _, fun _ hd => hd, fun _ hd => .inl hd, fun _ hn => hn,
    fun _ hn => .inl hn, fun a ha => ?_, rfl, rfl, rfl, rfl, ?_⟩
  · rw [connected_addNewUserNodeToList]
    exact List.mem_append_left _ ha
  · rw [hqueue]
    rfl

theorem handleDelDisconnectUser_deleted (h : Orderly s) {addr : Nat}
    (hqueue : s.queue = .delDisconnectUser addr :: queue)
    (hok : handleDelDisconnectUser addr { s with queue } = .ok s') :
    ∃ n, Deleted n s s' := by
  obtain ⟨n, hn, hok⟩ := bind_eq_ok.mp hok
  obtain rfl := Except.ok.inj hok
  obtain ⟨hlive, rfl⟩ := mem_of_pointedTo hn
  have hlisted : n.addr ∈ connected s.server := by
    obtain ⟨next, hnext⟩ := h.head hqueue n.addr
    refine stage_eq_present ?_
    by_contra hne
    simp [notice, QueueLifecycle.Stage.after, hne] at hnext
  obtain ⟨u, hfind, haddr, hconnfd⟩ := h.held.found hlive hlisted
  obtain ⟨cnt, heq⟩ := delUser_of_found
    (s := unregisterEvent n.connfd { s with queue }) hfind
  refine ⟨n, ?_⟩
  rw [heq, haddr, hconnfd]
  refine ⟨hlive, hqueue, rfl, fun d => ?_, fun m => ?_, fun a ha hne => ?_, rfl, rfl, rfl, rfl⟩
  · simp [release, close, unregisterEvent]
  · simp [release, close, unregisterEvent]
  · refine (FirstMatch.mem_map_eraseP_iff h.held.sessions hfind).mpr ⟨ha, ?_⟩
    rw [haddr]
    exact hne

end Handlers

end GwWeb.LinkPhases
