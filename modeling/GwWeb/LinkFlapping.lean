import GwWeb.LinkPhases

/-!
The openwrt session while the link goes up and down and the peer closes: the messages
about the link carry no descriptor, and each handler takes the one that is there when
it runs.
-/

namespace GwWeb.LinkFlapping

open TransitionRuns
open GwWeb.WebCommon
open GwWeb.Server hiding addNewUserNodeToList
open GwWeb.SessionThreads
open GwWeb.SessionTeardown
open GwWeb.LinkPhases

/-- The session follows the link: `MSG_OPENWRT_DISCONNECT` finds the session for the
last file that `connect_helloworld` returned; no two sessions have one descriptor;
with the queue drained there is a session for such a file if and only if the link is
up, the peer has not closed it and it is the last one, and the ones before it are
closed. The peer has closed when `recv` has seen the end of the stream, which it does
only behind an `event_fd` that the epoll thread reads. -/
structure FollowsLink (s : State) : Prop where
  found : s.queue.head? = some .openwrtDisconnect →
    ∃ u k, findUserNodeByConnfd s.server.openwrtConnfd s.server = some u ∧
      s.log.connects.getLast? = some k ∧ ⟨u.connfd, k⟩ ∈ s.opened
  distinct : (s.server.userSessionNodeHead.map UserSessionNode.connfd).Nodup
  drained : s.queue = [] → ∀ k ∈ s.log.connects,
    (SessionFor k s ↔
      s.server.openwrtLink = 1 ∧ k ∉ s.log.peerClosed ∧ s.log.connects.getLast? = some k) ∧
    (s.log.connects.getLast? ≠ some k → Closed k s)

/-- `link_detect_thread` sees a change of the link. -/
def ChangesLink (netStat connfd : Int) (s : State) : Prop :=
  (netStat = 1 ∧ s.server.openwrtLink = 0 ∧ 0 < connfd) ∨
    (netStat = 0 ∧ s.server.openwrtLink = 1)

/-- The link changes when the last change is handled, and goes down while the peer has
not closed; the peer does not close behind a `MSG_OPENWRT_DISCONNECT` for its session;
`MSG_OPENWRT_CONNECTED` can write to the eventfd; and no message is posted behind the
deletion of its session. -/
def InTurn (s : State) : Label → Prop
  | .recv .message => ∀ a ∈ s.serving, .delDisconnectUser a ∉ s.queue
  | .recv .closed => ∀ a ∈ s.serving, .delDisconnectUser a ∉ s.queue ∧
      (.openwrtDisconnect ∈ s.queue →
        ∀ u ∈ findUserNodeByConnfd s.server.openwrtConnfd s.server, u.addr ≠ a)
  | .linkDetect netStat connfd => ChangesLink netStat connfd s →
      linkMsgs s = [] ∧
        (netStat = 0 → ∀ k ∈ s.log.connects.getLast?, k ∉ s.log.peerClosed)
  | .handle ptr => s.queue.head? = some .openwrtConnected → s.server.openwrtLink ≠ 0 →
      s.eventFd.count + ptr ≤ 0xfffffffffffffffe
  | _ => True

instance (netStat connfd : Int) (s : State) : Decidable (ChangesLink netStat connfd s) :=
  inferInstanceAs (Decidable (_ ∨ _))

instance (s : State) (l : Label) : Decidable (InTurn s l) :=
  match l with
  | .recv .message =>
      inferInstanceAs (Decidable (∀ a ∈ s.serving, .delDisconnectUser a ∉ s.queue))
  | .recv .closed =>
      inferInstanceAs (Decidable (∀ a ∈ s.serving, .delDisconnectUser a ∉ s.queue ∧
        (.openwrtDisconnect ∈ s.queue →
          ∀ u ∈ findUserNodeByConnfd s.server.openwrtConnfd s.server, u.addr ≠ a)))
  | .linkDetect netStat connfd =>
      inferInstanceAs (Decidable (ChangesLink netStat connfd s → linkMsgs s = [] ∧
        (netStat = 0 → ∀ k ∈ s.log.connects.getLast?, k ∉ s.log.peerClosed)))
  | .handle _ => inferInstanceAs (Decidable (_ → _ → _))
  | .recv .again => isTrue trivial
  | .accept _ _ => isTrue trivial
  | .eventFd => isTrue trivial
  | .notify _ => isTrue trivial

/-- The last file is in one of its phases, and the ones before it are ending. -/
structure Flapping (s : State) : Prop where
  orderly : Orderly s
  filed : Filed s
  older : ∀ k ∈ s.log.connects, s.log.connects.getLast? ≠ some k → Ending k s
  latest : ∀ k, s.log.connects.getLast? = some k → Phase k s
  never : s.log.connects.getLast? = none → s.server.openwrtLink = 0 ∧ linkMsgs s = []

variable {s s' : State} {l : Label} {k : Nat} {queue : List Msg}

theorem Flapping.stopping (h : Flapping s) (hmem : .openwrtDisconnect ∈ s.queue) :
    ∃ n k, s.log.connects.getLast? = some k ∧ Standing n k s ∧
      s.server.openwrtLink = 0 ∧ linkMsgs s = [.openwrtDisconnect] := by
  have hposted : Msg.openwrtDisconnect ∈ linkMsgs s := List.mem_filter.mpr ⟨hmem, rfl⟩
  cases hlast : s.log.connects.getLast? with
  | none => simp [(h.never hlast).2] at hposted
  | some k =>
      cases h.latest k hlast with
      | stopping link posted n standing => exact ⟨n, k, rfl, standing, link, posted⟩
      | connecting link posted | up link posted | lost link posted | down link posted =>
          simp [posted] at hposted

theorem Flapping.connecting (h : Flapping s) (hmem : .openwrtConnected ∈ s.queue) :
    ∃ k, s.log.connects.getLast? = some k ∧ s.server.openwrtLink = 1 ∧
      linkMsgs s = [.openwrtConnected] ∧ ⟨s.server.openwrtConnfd, k⟩ ∈ s.opened ∧
      s.server.openwrtConnfd ∉ s.nodes.map Node.connfd ∧ k ∉ s.log.peerClosed := by
  have hposted : Msg.openwrtConnected ∈ linkMsgs s := List.mem_filter.mpr ⟨hmem, rfl⟩
  cases hlast : s.log.connects.getLast? with
  | none => simp [(h.never hlast).2] at hposted
  | some k =>
      cases h.latest k hlast with
      | connecting link posted opened unused peer =>
          exact ⟨k, rfl, link, posted, opened, unused, peer⟩
      | stopping link posted | up link posted | lost link posted | down link posted =>
          simp [posted] at hposted

theorem Flapping.followsLink (h : Flapping s) : FollowsLink s := by
  refine ⟨fun hhead => ?_, h.orderly.held.distinct, fun hqueue k hk => ?_⟩
  · obtain ⟨n, k, hlast, hstanding, -, -⟩ := h.stopping (List.mem_of_head? hhead)
    obtain ⟨u, hfind, -, hconnfd⟩ := hstanding.found h.orderly.held
    exact ⟨u, k, hfind, hlast, hconnfd ▸ hstanding.opened⟩
  · by_cases hlast : s.log.connects.getLast? = some k
    · refine ⟨?_, fun hne => absurd hlast hne⟩
      rw [(h.latest k hlast).sessionFor_iff h.orderly.held hqueue]
      simp [hlast]
    · have hclosed := (h.older k hk hlast).closed hqueue
      exact ⟨iff_of_false hclosed.not_sessionFor fun h => hlast h.2.2, fun _ => hclosed⟩

theorem Flapping.keepsOrder (h : Flapping s) (hguard : InTurn s l) : KeepsOrder s l := by
  cases l with
  | recv r =>
      cases r with
      | message => exact hguard
      | again => trivial
      | closed => exact fun a ha => (hguard a ha).1
  | handle ptr =>
      simp only [KeepsOrder]
      cases hqueue : s.queue with
      | nil => trivial
      | cons m queue =>
          cases m with
          | openwrtConnected =>
              intro hlink
              obtain ⟨k, -, -, -, hopened, hunused, -⟩ := h.connecting (by simp [hqueue])
              exact ⟨List.mem_map_of_mem hopened, hunused⟩
          | openwrtDisconnect =>
              intro u hu
              obtain ⟨n, k, -, hstanding, -, -⟩ := h.stopping (by simp [hqueue])
              obtain ⟨v, hfind, haddr, -⟩ := hstanding.found h.orderly.held
              obtain rfl := Option.some.inj (hfind.symm.trans hu)
              exact haddr ▸ hstanding.kept
          | acceptNewUser | delDisconnectUser | request => trivial
  | accept | eventFd | notify | linkDetect => trivial

theorem Flapping.quiet (h : Flapping s) (horderly : Orderly s') (hquiet : Quiet s s') :
    Flapping s' := by
  have hconnects := hquiet.connects
  refine ⟨horderly, h.filed.quiet hquiet, fun k hk hlast => ?_, fun k hlast => ?_, fun hlast => ?_⟩
  · rw [hconnects] at hk hlast
    exact (h.older k hk hlast).grows hquiet.grows (h.filed.connects k hk)
  · rw [hconnects] at hlast
    exact (h.latest k hlast).quiet hquiet (h.filed.connects k (List.mem_of_getLast? hlast))
  · rw [hconnects] at hlast
    rw [hquiet.link, hquiet.linkMsgs]
    exact h.never hlast

theorem Flapping.deleted (h : Flapping s) (horderly : Orderly s') {n : Node}
    (hdeleted : Deleted n s s') : Flapping s' := by
  have hconnects := hdeleted.connects
  refine ⟨horderly, h.filed.deleted hdeleted, fun k hk hlast => ?_, fun k hlast => ?_,
    fun hlast => ?_⟩
  · rw [hconnects] at hk hlast
    exact (h.older k hk hlast).deleted hdeleted h.orderly.held h.filed hk
  · rw [hconnects] at hlast
    exact (h.latest k hlast).deleted hdeleted h.orderly.held h.filed (List.mem_of_getLast? hlast)
  · rw [hconnects] at hlast
    rw [hdeleted.link, hdeleted.linkMsgs]
    exact h.never hlast

theorem Flapping.linkUp (h : Flapping s) (horderly : Orderly s') {connfd : Int}
    (hfree : connfd ∉ numbers s) (hlink : s.server.openwrtLink = 0) (hposted : linkMsgs s = [])
    (heq : s' = postMsg .openwrtConnected { openFile connfd s with
      server := { s.server with openwrtLink := 1, openwrtConnfd := connfd }
      log := { s.log with connects := s.log.connects ++ [s.files] } }) : Flapping s' := by
  have hgrows : Grows s s' := by
    rw [heq]
    refine ⟨Nat.le_succ _, fun d hd => List.mem_append_left _ hd, fun d hd => ?_, fun _ hn => hn,
      fun _ ha => List.mem_append_left _ ha⟩
    rcases List.mem_append.mp hd with hold | hnew
    · exact .inl hold
    · rw [List.mem_singleton.mp hnew]
      exact .inr ⟨Nat.le_refl _, Nat.lt_succ_self _⟩
  have hconnects : s'.log.connects = s.log.connects ++ [s.files] := by rw [heq]; rfl
  have hending : ∀ k ∈ s.log.connects, Ending k s := by
    intro k hk
    by_cases hlast : s.log.connects.getLast? = some k
    · cases h.latest k hlast with
      | down link posted ending => exact ending
      | stopping link posted => simp [hposted] at posted
      | connecting link | up link | lost link => simp [hlink] at link
    · exact h.older k hk hlast
  have hnewer : ∀ k ∈ s'.log.connects, k ≠ s.files → k ∈ s.log.connects := by
    intro k hk hne
    rw [hconnects] at hk
    exact (List.mem_append.mp hk).resolve_right fun hin => hne (List.mem_singleton.mp hin)
  have hopened : ∀ d ∈ s'.opened, d ∈ s.opened ∨ d = ⟨connfd, s.files⟩ := by
    intro d hd
    rw [heq] at hd
    exact (List.mem_append.mp hd).imp id List.mem_singleton.mp
  have hlast : s'.log.connects.getLast? = some s.files := by rw [hconnects]; simp
  refine ⟨horderly,
    ⟨fun d hd => ?_, fun k hk => ?_, fun k hk => ?_, fun d hd d' hd' hconnect hfile => ?_⟩,
    fun k hk hne => ?_, fun k hk => ?_, fun hnone => ?_⟩
  · rcases hgrows.later d hd with hold | hnew
    · exact Nat.lt_of_lt_of_le (h.filed.bound d hold) hgrows.files
    · exact hnew.2
  · have hfiles : s'.files = s.files + 1 := by rw [heq]; rfl
    rcases eq_or_ne k s.files with rfl | hne
    · omega
    · have := h.filed.connects k (hnewer k hk hne)
      omega
  · rw [heq] at hk
    exact Nat.lt_of_lt_of_le (h.filed.peerClosed k hk) hgrows.files
  · rcases hopened d hd with hold | rfl <;> rcases hopened d' hd' with hold' | rfl
    · exact h.filed.sole d hold d' hold'
        (hnewer _ hconnect (Nat.ne_of_lt (h.filed.bound d hold))) hfile
    · exact absurd hfile (Nat.ne_of_lt (h.filed.bound d hold))
    · exact absurd hfile.symm (Nat.ne_of_lt (h.filed.bound d' hold'))
    · rfl
  · have hk := hnewer k hk fun hfile => hne (hfile ▸ hlast)
    exact (hending k hk).grows hgrows (h.filed.connects k hk)
  · obtain rfl := Option.some.inj (hlast.symm.trans hk)
    rw [heq]
    refine .connecting rfl ?_ ?_ ?_ fun hin => Nat.lt_irrefl _ (h.filed.peerClosed _ hin)
    · rw [linkMsgs] at hposted
      simp [linkMsgs, postMsg, openFile, hposted, isLink]
    · exact List.mem_append_right _ (List.mem_singleton_self _)
    · intro hin
      obtain ⟨n, hn, rfl⟩ := List.mem_map.mp hin
      exact hfree (h.orderly.held.opened n hn)
  · simp [hlast] at hnone

theorem Flapping.linkDown (h : Flapping s) (horderly : Orderly s')
    (hlink : s.server.openwrtLink = 1) (hposted : linkMsgs s = [])
    (hpeer : ∀ k ∈ s.log.connects.getLast?, k ∉ s.log.peerClosed)
    (heq : s' = postMsg .openwrtDisconnect
      { s with server := { s.server with openwrtLink := 0 } }) : Flapping s' := by
  have hgrows : Grows s s' := by
    rw [heq]
    exact .post rfl rfl rfl rfl
  have hconnects : s'.log.connects = s.log.connects := by rw [heq]; rfl
  refine ⟨horderly, ?_, fun k hk hlast => ?_, fun k hlast => ?_, fun hnone => ?_⟩
  · rw [heq]
    exact ⟨h.filed.bound, h.filed.connects, h.filed.peerClosed, h.filed.sole⟩
  · rw [hconnects] at hk hlast
    exact (h.older k hk hlast).grows hgrows (h.filed.connects k hk)
  · rw [hconnects] at hlast
    cases h.latest k hlast with
    | up link posted n standing peer =>
        rw [heq]
        refine .stopping rfl ?_ n ⟨standing.live, standing.listed, standing.connfd,
          standing.opened, ?_⟩
        · rw [linkMsgs] at hposted
          simp [linkMsgs, postMsg, hposted, isLink]
        · simpa [postMsg] using standing.kept
    | lost link posted peer ending => exact absurd peer (hpeer k hlast)
    | connecting link posted => simp [hposted] at posted
    | stopping link | down link => simp [hlink] at link
  · rw [hconnects] at hnone
    have hdown := (h.never hnone).1
    simp [hlink] at hdown

theorem Flapping.peerClosed (h : Flapping s) (horderly : Orderly s') {n : Node}
    (hlive : n ∈ s.nodes)
    (hstop : .openwrtDisconnect ∈ s.queue →
      ∀ u ∈ findUserNodeByConnfd s.server.openwrtConnfd s.server, u.addr ≠ n.addr)
    (heq : s' = postMsg (.delDisconnectUser n.addr) { s with
      serving := none
      log := { s.log with peerClosed := s.log.peerClosed ++
        (s.opened.filter fun d => d.number = n.connfd).map Descriptor.file } }) :
    Flapping s' := by
  have hgrows : Grows s s' := by
    rw [heq]
    exact .post rfl rfl rfl rfl
  have hconnects : s'.log.connects = s.log.connects := by rw [heq]; rfl
  have hposted : linkMsgs s' = linkMsgs s := by
    rw [heq]
    simp [linkMsgs, postMsg, isLink]
  have hpeer : ∀ k, k ∈ s'.log.peerClosed ↔
      k ∈ s.log.peerClosed ∨ ⟨n.connfd, k⟩ ∈ s.opened := by
    intro k
    rw [heq]
    simp only [postMsg, List.mem_append, List.mem_map, List.mem_filter, decide_eq_true_eq]
    refine or_congr_right ⟨?_, fun hd => ⟨_, ⟨hd, rfl⟩, rfl⟩⟩
    rintro ⟨d, ⟨hd, hnumber⟩, rfl⟩
    exact hnumber ▸ hd
  have hother : ∀ {m : Node} {k : Nat}, Standing m k s → n.addr ≠ m.addr → Standing m k s' := by
    intro m k hstanding hne
    rw [heq]
    refine ⟨hstanding.live, hstanding.listed, hstanding.connfd, hstanding.opened, ?_⟩
    simpa [postMsg, hne.symm] using hstanding.kept
  refine ⟨horderly, ?_, fun k hk hlast => ?_, fun k hlast => ?_, fun hnone => ?_⟩
  · refine ⟨?_, ?_, fun k hk => ?_, ?_⟩
    · rw [heq]; exact h.filed.bound
    · rw [heq]; exact h.filed.connects
    · rw [heq]
      rcases (hpeer k).mp hk with hold | hnew
      · exact h.filed.peerClosed k hold
      · exact h.filed.bound _ hnew
    · rw [heq]; exact h.filed.sole
  · rw [hconnects] at hk hlast
    exact (h.older k hk hlast).grows hgrows (h.filed.connects k hk)
  · rw [hconnects] at hlast
    have hk := List.mem_of_getLast? hlast
    have hlink : s'.server.openwrtLink = s.server.openwrtLink := by rw [heq]; rfl
    cases h.latest k hlast with
    | connecting link posted opened unused peer =>
        refine .connecting (hlink.trans link) (hposted.trans posted) ?_ ?_ fun hin => ?_
        · rw [heq]; exact opened
        · rw [heq]; exact unused
        · rcases (hpeer k).mp hin with hold | hnew
          · exact peer hold
          · have hsame := h.filed.sole _ opened _ hnew hk rfl
            have hnumber : s.server.openwrtConnfd = n.connfd := congrArg Descriptor.number hsame
            exact unused (hnumber ▸ List.mem_map_of_mem hlive)
    | up link posted m standing peer =>
        rcases eq_or_ne n.addr m.addr with haddr | hne
        · obtain rfl := h.orderly.held.eq_of_addr hlive standing.live haddr
          refine .lost (hlink.trans link) (hposted.trans posted)
            ((hpeer k).mpr (.inr standing.opened)) (.inr ⟨n, ?_, ?_, ?_⟩)
          · rw [heq]; exact hlive
          · rw [heq]; exact standing.opened
          · rw [heq]; simp [postMsg]
        · refine .up (hlink.trans link) (hposted.trans posted) m (hother standing hne) fun hin => ?_
          rcases (hpeer k).mp hin with hold | hnew
          · exact peer hold
          · have hsame := h.filed.sole _ standing.opened _ hnew hk rfl
            have hnumber : m.connfd = n.connfd := congrArg Descriptor.number hsame
            exact hne (congrArg Node.addr
              (h.orderly.held.eq_of_connfd hlive standing.live hnumber.symm))
    | lost link posted peer ending =>
        exact .lost (hlink.trans link) (hposted.trans posted) ((hpeer k).mpr (.inl peer))
          (ending.grows hgrows (h.filed.connects k hk))
    | stopping link posted m standing =>
        refine .stopping (hlink.trans link) (hposted.trans posted) m
          (hother standing fun haddr => ?_)
        obtain ⟨u, hfind, hu, -⟩ := standing.found h.orderly.held
        have hmem : Msg.openwrtDisconnect ∈ linkMsgs s := by simp [posted]
        exact hstop (List.mem_of_mem_filter hmem) u hfind (hu.trans haddr.symm)
    | down link posted ending =>
        exact .down (hlink.trans link) (hposted.trans posted)
          (ending.grows hgrows (h.filed.connects k hk))
  · rw [hconnects] at hnone
    rw [hposted, heq]
    exact h.never hnone

theorem Flapping.connected (h : Flapping s) (horderly : Orderly s') {ptr : Nat}
    (hqueue : s.queue = .openwrtConnected :: queue)
    (hwrites : s.server.openwrtLink ≠ 0 → s.eventFd.count + ptr ≤ 0xfffffffffffffffe)
    (hconnected : OpenwrtConnected ptr { s with queue } s') : Flapping s' := by
  obtain ⟨k₀, hlast₀, hlink, hposted, hopened, -, hpeer⟩ := h.connecting (by simp [hqueue])
  have hne : s.server.openwrtLink ≠ 0 := by simp [hlink]
  cases hconnected with
  | linkIsDown hdown => exact absurd hdown hne
  | failed _ hwrite => exact absurd (hwrites hne) (Nat.not_le.mpr hwrite)
  | written _ hwrite =>
      have hgrows : Grows s { enterOpenwrt ptr { s with queue } with
          eventFd := { s.eventFd with count := s.eventFd.count + ptr }
          log := { s.log with
            written := s.log.written ++ [openwrtNode ptr { s with queue }] } } := by
        refine ⟨Nat.le_refl _, fun _ hd => hd, fun _ hd => .inl hd,
          fun _ hn => List.mem_append_left _ hn, fun a ha => ?_⟩
        rw [hqueue] at ha
        simpa [enterOpenwrt, newUserNode] using ha
      have hnone : linkMsgs { s with queue } = [] := by
        rw [linkMsgs, hqueue, List.filter_cons_of_pos rfl] at hposted
        exact (List.cons.inj hposted).2
      refine ⟨horderly, ⟨h.filed.bound, h.filed.connects, h.filed.peerClosed, h.filed.sole⟩,
        fun k hk hlast => (h.older k hk hlast).grows hgrows (h.filed.connects k hk),
        fun k hlast => ?_, fun hempty => ?_⟩
      · obtain rfl := Option.some.inj (hlast₀.symm.trans hlast)
        refine .up hlink hnone (openwrtNode ptr { s with queue })
          ⟨List.mem_append_right _ (List.mem_singleton_self _), ?_, rfl, hopened,
            fun hdel => ?_⟩ hpeer
        · change _ ∈ Server.connected (addNewUserNodeToList (openwrtNode ptr { s with queue }) _)
          rw [connected_addNewUserNodeToList]
          exact List.mem_append_right _ (List.mem_singleton_self _)
        · have hunused := (QueueLifecycle.through_absent
            (h.orderly.fresh s.server.allocated (Nat.le_refl _))).2
          refine hunused (.leave s.server.allocated) ?_ rfl
          rw [hqueue]
          exact List.mem_map_of_mem (f := notice) (List.mem_cons_of_mem _ hdel)
      · simp [hlast₀] at hempty

theorem Flapping.disconnected (h : Flapping s) (horderly : Orderly s')
    (hqueue : s.queue = .openwrtDisconnect :: queue)
    (hok : handleOpenwrtDisconnect { s with queue } = .ok s') : Flapping s' := by
  obtain ⟨n, k₀, hlast₀, hstanding, hlink, hposted⟩ := h.stopping (by simp [hqueue])
  obtain ⟨u, hfind, haddr, -⟩ := hstanding.found h.orderly.held
  simp only [handleOpenwrtDisconnect, hfind] at hok
  obtain ⟨g, hg, hok⟩ := bind_eq_ok.mp hok
  obtain rfl := Except.ok.inj hok
  have hgn : g.addr = n.addr := (mem_of_pointedTo hg).2.trans haddr
  have hgrows : Grows s (postMsg (.delDisconnectUser g.addr) { s with queue }) := by
    refine ⟨Nat.le_refl _, fun _ hd => hd, fun _ hd => .inl hd, fun _ hn => hn, fun a ha => ?_⟩
    rw [hqueue] at ha
    exact List.mem_append_left _ (by simpa using ha)
  have hnone : linkMsgs (postMsg (.delDisconnectUser g.addr) { s with queue }) = [] := by
    rw [linkMsgs, hqueue, List.filter_cons_of_pos rfl] at hposted
    rw [linkMsgs, postMsg, List.filter_append, (List.cons.inj hposted).2]
    rfl
  refine ⟨horderly, ⟨h.filed.bound, h.filed.connects, h.filed.peerClosed, h.filed.sole⟩,
    fun k hk hlast => (h.older k hk hlast).grows hgrows (h.filed.connects k hk),
    fun k hlast => ?_, fun hempty => ⟨hlink, hnone⟩⟩
  obtain rfl := Option.some.inj (hlast₀.symm.trans hlast)
  refine .down hlink hnone (.inr ⟨n, hstanding.live, hstanding.opened, ?_⟩)
  rw [hgn]
  exact List.mem_append_right _ (List.mem_singleton_self _)

theorem Flapping.step (h : Flapping s) (hguard : InTurn s l) (hstep : Step s l s') :
    Flapping s' := by
  have horderly : Orderly s' := h.orderly.step (h.keepsOrder hguard) hstep
  obtain ⟨hpossible, hok⟩ := hstep
  cases l with
  | accept connfd ptr =>
      obtain rfl := Except.ok.inj hok
      exact h.quiet horderly (accept_quiet h.orderly.held hpossible.2.2.1 ptr)
  | eventFd => exact h.quiet horderly (eventFdReady_quiet hok)
  | notify addr =>
      obtain ⟨n, -, hok⟩ := bind_eq_ok.mp hok
      split at hok
      · obtain rfl := Except.ok.inj hok
        exact h
      · obtain rfl := Except.ok.inj hok
        exact h.quiet horderly (quiet_of_same rfl rfl rfl rfl rfl rfl rfl)
  | recv r =>
      simp only [execute, receive] at hok
      cases hserving : s.serving with
      | none => exact absurd hserving hpossible
      | some addr =>
          rw [hserving] at hok
          obtain ⟨n, hn, hok⟩ := bind_eq_ok.mp hok
          obtain ⟨hlive, rfl⟩ := mem_of_pointedTo hn
          cases r with
          | again =>
              obtain rfl := Except.ok.inj hok
              exact h.quiet horderly (quiet_of_same rfl rfl rfl rfl rfl rfl rfl)
          | message =>
              obtain rfl := Except.ok.inj hok
              refine h.quiet horderly (quiet_of_same rfl rfl rfl rfl rfl rfl ?_)
              simp [postMsg, watched]
          | closed =>
              exact h.peerClosed horderly hlive (hguard _ hserving).2 (Except.ok.inj hok).symm
  | linkDetect netStat connfd =>
      have heq : linkDetectThread netStat connfd s = s' := Except.ok.inj hok
      unfold linkDetectThread at heq
      split at heq
      · rename_i hup
        split at heq
        · rename_i hconnfd
          obtain ⟨hposted, -⟩ := hguard (.inl ⟨hup.1, hup.2, hconnfd⟩)
          exact h.linkUp horderly (hpossible hconnfd) hup.2 hposted heq.symm
        · exact heq ▸ h
      · split at heq
        · rename_i hdown
          obtain ⟨hposted, hpeer⟩ := hguard (.inr hdown)
          exact h.linkDown horderly hdown.2 hposted (hpeer hdown.1) heq.symm
        · exact heq ▸ h
  | handle ptr =>
      simp only [execute, eventLoop] at hok
      cases hqueue : s.queue with
      | nil =>
          rw [hqueue] at hok
          exact Except.ok.inj hok ▸ h
      | cons m queue =>
          rw [hqueue] at hok
          cases m with
          | acceptNewUser addr => exact h.quiet horderly (handleAcceptNewUser_quiet hqueue hok)
          | delDisconnectUser addr =>
              obtain ⟨n, hdeleted⟩ := handleDelDisconnectUser_deleted h.orderly hqueue hok
              exact h.deleted horderly hdeleted
          | openwrtConnected =>
              obtain rfl := Except.ok.inj hok
              exact h.connected horderly hqueue (hguard (by simp [hqueue]))
                (handleOpenwrtConnected_connected ptr _)
          | openwrtDisconnect => exact h.disconnected horderly hqueue hok
          | request addr =>
              obtain ⟨n, -, hok⟩ := bind_eq_ok.mp hok
              obtain rfl := Except.ok.inj hok
              refine h.quiet horderly (quiet_of_same rfl rfl rfl rfl rfl rfl ?_)
              rw [hqueue]
              rfl

theorem flapping_started (hs : Started s) : Flapping s := by
  have hlog := hs.log
  refine ⟨orderly_started hs, ⟨hs.files, ?_, ?_, ?_⟩, ?_, ?_, fun _ => ⟨?_, ?_⟩⟩
  any_goals simp [hlog]
  · rw [hs.server]
    rfl
  · simp [linkMsgs, hs.queue]

/-- In a run whose steps meet the condition the session follows the link throughout. -/
theorem follows_link {s₀ s : State} {trs : List (Transition State Label)} (hs : Started s₀)
    (h : Run Step s₀ trs s) (hguard : ∀ tr ∈ trs, InTurn tr.before tr.label) :
    FollowsLink s ∧ ∀ tr ∈ trs, FollowsLink tr.before ∧ FollowsLink tr.after := by
  have hkeep : ∀ a l b, Flapping a → InTurn a l → Step a l b → Flapping b :=
    fun a l b ha hguard hstep => ha.step hguard hstep
  obtain ⟨hmem, hlast⟩ := h.invariant hkeep (flapping_started hs) hguard
  exact ⟨hlast.followsLink,
    fun tr htr => ⟨(hmem tr htr).1.followsLink, (hmem tr htr).2.followsLink⟩⟩

/-- The link comes up, goes down and comes up again, with the same number for both
descriptors; then the peer closes. -/
theorem follows_link_up_down_up :
    ∃ trs s, Run Step (startState 5) trs s ∧ s.log.connects = [0, 1] ∧
      s.log.peerClosed = [1] ∧ FollowsLink s := by
  obtain ⟨trs, s, hs, hconnects, hpeer⟩ :
      ∃ trs s, replay (attempt (fun s l => InTurn s l ∧ Possible s l) execute) (startState 5)
          [.linkDetect 1 8, .handle 4096, .eventFd, .linkDetect 0 0, .handle 8192, .handle 8192,
            .linkDetect 1 8, .handle 8192, .eventFd, .notify 1, .recv .closed, .handle 12288] =
          some (trs, s) ∧
        s.log.connects = [0, 1] ∧ s.log.peerClosed = [1] := ⟨_, _, rfl, rfl, rfl⟩
  obtain ⟨hrun, hguard⟩ := run_of_guarded_attempts hs
  exact ⟨trs, s, hrun, hconnects, hpeer, (follows_link (startState_started 5) hrun hguard).1⟩

/-- The link is up for so short a time that `MSG_OPENWRT_CONNECTED` is handled when it
is down again: nothing enters, and `MSG_OPENWRT_DISCONNECT` finds nothing. -/
theorem down_before_entered :
    ∃ trs s, Run Step (startState 5) trs s ∧ s.queue = [.openwrtDisconnect] ∧
      execute s (.handle 8192) = .error .nullPointer ∧ ¬ FollowsLink s := by
  obtain ⟨trs, s, hs, hqueue, hfault, hnone⟩ :
      ∃ trs s, replay (attempt Possible execute) (startState 5)
          [.linkDetect 1 8, .linkDetect 0 0, .handle 4096] = some (trs, s) ∧
        s.queue = [.openwrtDisconnect] ∧ execute s (.handle 8192) = .error .nullPointer ∧
        findUserNodeByConnfd s.server.openwrtConnfd s.server = none := ⟨_, _, rfl, rfl, rfl, rfl⟩
  refine ⟨trs, s, run_of_attempts hs, hqueue, hfault, fun hfollows => ?_⟩
  obtain ⟨u, k, hfind, -⟩ := hfollows.found (by simp [hqueue])
  simp [hnone] at hfind

end GwWeb.LinkFlapping
