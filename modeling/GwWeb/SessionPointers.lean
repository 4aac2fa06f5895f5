import GwWeb.SessionTeardown

/-!
What points to a session without a message: the round of `process_recv_event`, the
interest list of epoll and the value in the eventfd. `del_user` asks none of them.
-/

namespace GwWeb.SessionTeardown

open QueueLifecycle
open GwWeb.WebCommon
open GwWeb.Server hiding addNewUserNodeToList
open GwWeb.SessionThreads

/-- The guard on `event_fd` lets the epoll thread read the eventfd. -/
def ReadsEventFd (s : State) : Prop := s.eventFd.number &&& EPOLLIN ≠ 0

/-- Neither the epoll thread nor the eventfd holds a pointer to the session. -/
def NotHeld (s : State) (a : Nat) : Prop :=
  s.serving ≠ some a ∧ (ReadsEventFd s → ∀ n ∈ s.nodes, n.addr = a → n.ptr ≠ s.eventFd.count)

/-- A session is deleted while nothing holds a pointer to it; a pointer is written to
the eventfd when the last one is read. -/
def HandledFree (s : State) : Option Msg → Prop
  | some (.delDisconnectUser a) => NotHeld s a
  | some .openwrtConnected =>
      s.server.openwrtLink ≠ 0 → ReadsEventFd s → s.eventFd.count = 0
  | _ => True

/-- The condition of a step, which reads the message at the head of the queue. -/
def DeletesFree (s : State) : Label → Prop
  | .handle _ => HandledFree s s.queue.head?
  | _ => True

instance (s : State) : Decidable (ReadsEventFd s) := inferInstanceAs (Decidable (_ ≠ _))

instance (s : State) (a : Nat) : Decidable (NotHeld s a) :=
  inferInstanceAs (Decidable (_ ∧ (_ → ∀ n ∈ s.nodes, n.addr = a → n.ptr ≠ s.eventFd.count)))

instance (s : State) (m : Option Msg) : Decidable (HandledFree s m) :=
  match m with
  | some (.delDisconnectUser a) => inferInstanceAs (Decidable (NotHeld s a))
  | some .openwrtConnected => inferInstanceAs (Decidable (_ → _ → _))
  | some .openwrtDisconnect => isTrue trivial
  | some (.acceptNewUser _) => isTrue trivial
  | some (.request _) => isTrue trivial
  | none => isTrue trivial

instance (s : State) (l : Label) : Decidable (DeletesFree s l) :=
  match l with
  | .handle _ => inferInstanceAs (Decidable (HandledFree s s.queue.head?))
  | .accept _ _ => isTrue trivial
  | .eventFd => isTrue trivial
  | .notify _ => isTrue trivial
  | .recv _ => isTrue trivial
  | .linkDetect _ _ => isTrue trivial

/-- Whatever points to a session points to one that is not freed. -/
structure Pointed (s : State) : Prop where
  kept : ∀ a < s.server.allocated, a ∈ s.nodes.map Node.addr ∨ a ∈ s.server.released
  serving : ∀ a ∈ s.serving, a ∈ s.nodes.map Node.addr
  interest : ∀ i ∈ s.interest, ∃ n ∈ s.nodes, n.addr = i.addr ∧ n.connfd = i.connfd
  eventFd : ReadsEventFd s → s.eventFd.count ≠ 0 → ∃ n ∈ s.nodes, n.ptr = s.eventFd.count

/-- The session that a step deletes by its message. -/
def deletes (s : State) : Label → Option Nat
  | .handle _ =>
      match s.queue.head? with
      | some (.delDisconnectUser a) => some a
      | _ => none
  | _ => none

/-- A step keeps the pointers, and what is registered but for the session it deletes. -/
structure KeepsPointers (deleted : Option Nat) (s s' : State) : Prop where
  pointed : Pointed s'
  registered : ∀ i ∈ s.interest, some i.addr ≠ deleted → i ∈ s'.interest

variable {s s' : State} {l : Label} {a : Nat} {m : Msg} {queue : List Msg} {deleted : Option Nat}

theorem exists_of_live (h : a ∈ s.nodes.map Node.addr) : ∃ n, pointedTo a s = .ok n := by
  unfold pointedTo
  cases hfind : s.nodes.find? fun n => n.addr = a with
  | some n => exact ⟨n, rfl⟩
  | none =>
      obtain ⟨n, hn, haddr⟩ := List.mem_map.mp h
      have hnot := List.find?_eq_none.mp hfind n hn
      simp [haddr] at hnot

theorem Pointed.same (h : Pointed s) (hnodes : s'.nodes = s.nodes)
    (hserver : s'.server.allocated = s.server.allocated ∧ s'.server.released = s.server.released)
    (hinterest : s'.interest = s.interest) (heventFd : s'.eventFd = s.eventFd)
    (hserving : ∀ a ∈ s'.serving, a ∈ s.nodes.map Node.addr) : KeepsPointers deleted s s' := by
  refine ⟨⟨?_, ?_, ?_, ?_⟩, fun i hi _ => hinterest ▸ hi⟩
  · rw [hserver.1, hserver.2, hnodes]
    exact h.kept
  · rw [hnodes]
    exact hserving
  · rw [hinterest, hnodes]
    exact h.interest
  · rw [ReadsEventFd, heventFd, hnodes]
    exact h.eventFd

theorem Pointed.newUserNode (h : Pointed s) (ptr : Nat) (connfd : Int) :
    Pointed (newUserNode ptr connfd s).2 := by
  have hold : ∀ n ∈ s.nodes, n ∈ (SessionThreads.newUserNode ptr connfd s).2.nodes :=
    fun n hn => List.mem_append_left _ hn
  refine ⟨fun a ha => ?_, fun a ha => ?_, fun i hi => ?_, fun hreads hcount => ?_⟩
  · rcases Nat.lt_succ_iff_lt_or_eq.mp ha with hlt | rfl
    · rcases h.kept a hlt with hlive | hreleased
      · obtain ⟨n, hn, rfl⟩ := List.mem_map.mp hlive
        exact .inl (List.mem_map_of_mem (hold n hn))
      · exact .inr hreleased
    · left
      simp [SessionThreads.newUserNode]
  · obtain ⟨n, hn, rfl⟩ := List.mem_map.mp (h.serving a ha)
    exact List.mem_map_of_mem (hold n hn)
  · obtain ⟨n, hn, haddr⟩ := h.interest i hi
    exact ⟨n, hold n hn, haddr⟩
  · obtain ⟨n, hn, hptr⟩ := h.eventFd hreads hcount
    exact ⟨n, hold n hn, hptr⟩

theorem Pointed.accept (h : Pointed s) (hheld : Held s) {connfd : Int} (hnew : connfd ∉ numbers s)
    (ptr : Nat) : KeepsPointers deleted s (acceptConnection connfd ptr s) := by
  rw [acceptConnection_eq hheld hnew]
  have hopened : Pointed (openFile connfd s) := ⟨h.kept, h.serving, h.interest, h.eventFd⟩
  have hentered := hopened.newUserNode ptr connfd
  refine ⟨⟨hentered.kept, hentered.serving, fun i hi => ?_, hentered.eventFd⟩,
    fun i hi _ => List.mem_append_left _ hi⟩
  rcases List.mem_append.mp hi with hold | hlast
  · exact hentered.interest i hold
  · rw [List.mem_singleton.mp hlast]
    exact ⟨⟨s.server.allocated, ptr, connfd⟩, List.mem_append_right _ (List.mem_singleton_self _),
      rfl, rfl⟩

theorem Pointed.eventFdReady (h : Pointed s) (hok : eventFdReady s = .ok s') :
    KeepsPointers deleted s s' := by
  unfold SessionThreads.eventFdReady at hok
  split at hok
  · obtain rfl := Except.ok.inj hok
    exact ⟨h, fun _ hi _ => hi⟩
  · split at hok
    · obtain rfl := Except.ok.inj hok
      exact ⟨h, fun _ hi _ => hi⟩
    · dsimp only at hok
      split at hok
      · cases hok
      · rename_i n hfind
        have hlive : n ∈ s.nodes := List.mem_of_find?_eq_some hfind
        split at hok
        · cases hok
        · split at hok
          · obtain rfl := Except.ok.inj hok
            exact ⟨⟨h.kept, h.serving, h.interest, fun _ hcount => absurd rfl hcount⟩,
              fun _ hi _ => hi⟩
          · rename_i s₂ hsome
            obtain ⟨-, -, rfl⟩ := epollCtlAdd_eq_some hsome
            obtain rfl := Except.ok.inj hok
            refine ⟨⟨h.kept, h.serving, fun i hi => ?_, fun _ hcount => absurd rfl hcount⟩,
              fun i hi _ => List.mem_append_left _ hi⟩
            rcases List.mem_append.mp hi with hold | hlast
            · exact h.interest i hold
            · rw [List.mem_singleton.mp hlast]
              exact ⟨n, hlive, rfl, rfl⟩

theorem Pointed.receive (h : Pointed s) {r : Received} (hok : receive r s = .ok s') :
    KeepsPointers deleted s s' := by
  unfold SessionThreads.receive at hok
  split at hok
  · obtain rfl := Except.ok.inj hok
    exact ⟨h, fun _ hi _ => hi⟩
  · rename_i addr hserving
    obtain ⟨n, -, hok⟩ := bind_eq_ok.mp hok
    cases r with
    | message =>
        obtain rfl := Except.ok.inj hok
        exact h.same rfl ⟨rfl, rfl⟩ rfl rfl h.serving
    | again | closed =>
        obtain rfl := Except.ok.inj hok
        exact h.same rfl ⟨rfl, rfl⟩ rfl rfl (by simp [postMsg])

theorem Pointed.linkDetectThread (h : Pointed s) (netStat connfd : Int) :
    KeepsPointers deleted s (linkDetectThread netStat connfd s) := by
  unfold SessionThreads.linkDetectThread
  split
  · split
    · exact h.same rfl ⟨rfl, rfl⟩ rfl rfl h.serving
    · exact ⟨h, fun _ hi _ => hi⟩
  · split
    · exact h.same rfl ⟨rfl, rfl⟩ rfl rfl h.serving
    · exact ⟨h, fun _ hi _ => hi⟩

theorem Pointed.delUser (h : Pointed s) (hheld : Held s) {connfd : Int} {u : UserSessionNode}
    (hfind : findUserNodeByConnfd connfd s.server = some u) (hserving : s.serving ≠ some u.addr)
    (hcount : ReadsEventFd s → s.eventFd.count ≠ 0 →
      ∃ n ∈ s.nodes, n.ptr = s.eventFd.count ∧ n.addr ≠ u.addr) :
    KeepsPointers (some u.addr) s (delUser connfd s) := by
  obtain ⟨cnt, heq⟩ := delUser_of_found hfind
  obtain ⟨n, hn, haddr, hconnfd⟩ := hheld.listed u (List.mem_of_find?_eq_some hfind)
  rw [heq]
  have hstays : ∀ m ∈ s.nodes, m.addr ≠ u.addr → m ∈ s.nodes.filter fun k => k.addr ≠ u.addr :=
    fun m hm hne => List.mem_filter.mpr ⟨hm, by simpa using hne⟩
  refine ⟨⟨fun a ha => ?_, fun a ha => ?_, fun i hi => ?_, fun hreads hne => ?_⟩,
    fun i hi hne => ?_⟩
  · rcases h.kept a ha with hlive | hreleased
    · obtain ⟨m, hm, rfl⟩ := List.mem_map.mp hlive
      rcases eq_or_ne m.addr u.addr with hsame | hne
      · exact .inr (hsame ▸ List.mem_cons_self)
      · exact .inl (List.mem_map_of_mem (hstays m hm hne))
    · exact .inr (List.mem_cons_of_mem _ hreleased)
  · obtain ⟨m, hm, rfl⟩ := List.mem_map.mp (h.serving a ha)
    refine List.mem_map_of_mem (hstays m hm fun hsame => hserving ?_)
    rw [← hsame]
    exact ha
  · obtain ⟨hi, hother⟩ := List.mem_filter.mp hi
    obtain ⟨m, hm, hmaddr, hmconnfd⟩ := h.interest i hi
    refine ⟨m, hstays m hm fun hsame => ?_, hmaddr, hmconnfd⟩
    obtain rfl := hheld.eq_of_addr hm hn (hsame.trans haddr.symm)
    simp [← hmconnfd, hconnfd] at hother
  · obtain ⟨m, hm, hptr, hother⟩ := hcount hreads hne
    exact ⟨m, hstays m hm hother, hptr⟩
  · obtain ⟨m, hm, hmaddr, hmconnfd⟩ := h.interest i hi
    refine List.mem_filter.mpr ⟨hi, ?_⟩
    simp only [ne_eq, decide_eq_true_eq]
    intro hsame
    obtain rfl := hheld.eq_of_connfd hm hn (hmconnfd.trans (hsame.trans hconnfd.symm))
    exact hne (congrArg some (hmaddr.symm.trans haddr))

theorem Pointed.handleAcceptNewUser (h : Pointed s) {addr : Nat}
    (hok : SessionThreads.handleAcceptNewUser addr { s with queue } = .ok s') :
    KeepsPointers deleted s s' := by
  obtain ⟨n, -, hok⟩ := bind_eq_ok.mp hok
  obtain rfl := Except.ok.inj hok
  exact h.same rfl ⟨rfl, rfl⟩ rfl rfl h.serving

theorem Pointed.handleDelDisconnectUser (h : Pointed s) (ho : Orderly s) {addr : Nat}
    (hqueue : s.queue = .delDisconnectUser addr :: queue) (hfree : NotHeld s addr)
    (hok : SessionThreads.handleDelDisconnectUser addr { s with queue } = .ok s') :
    KeepsPointers (some addr) s s' := by
  obtain ⟨n, hn, hok⟩ := bind_eq_ok.mp hok
  obtain rfl := Except.ok.inj hok
  obtain ⟨hlive, rfl⟩ := mem_of_pointedTo hn
  have hpresent : stage s n.addr = .present := by
    obtain ⟨next, hnext⟩ := ho.head hqueue n.addr
    by_contra hne
    simp [notice, Stage.after, hne] at hnext
  obtain ⟨u, hfind, haddr, -⟩ := ho.held.found hlive (stage_eq_present hpresent)
  have hsame : SameSessions s (unregisterEvent n.connfd { s with queue }) :=
    .of_eq rfl rfl rfl fun _ hi => List.mem_of_mem_filter hi
  have hbase : Pointed (unregisterEvent n.connfd { s with queue }) :=
    ⟨h.kept, h.serving, fun i hi => h.interest i (List.mem_of_mem_filter hi), h.eventFd⟩
  have hheld := ho.held.same hsame
  have hdeleted := hbase.delUser hheld hfind (haddr ▸ hfree.1) fun hreads hcount => by
    obtain ⟨m, hm, hptr⟩ := h.eventFd hreads hcount
    exact ⟨m, hm, hptr, fun heq => hfree.2 hreads m hm (heq.trans haddr) hptr⟩
  rw [haddr] at hdeleted
  refine ⟨hdeleted.pointed, fun i hi hne => hdeleted.registered i ?_ hne⟩
  obtain ⟨m, hm, hmaddr, hmconnfd⟩ := h.interest i hi
  refine List.mem_filter.mpr ⟨hi, ?_⟩
  simp only [ne_eq, decide_eq_true_eq]
  intro hsame
  obtain rfl := ho.held.eq_of_connfd hm hlive (hmconnfd.trans hsame)
  exact hne (congrArg some hmaddr.symm)

theorem Pointed.enterOpenwrt (h : Pointed s) (ptr : Nat) : Pointed (enterOpenwrt ptr s) :=
  let hentered := h.newUserNode ptr s.server.openwrtConnfd
  ⟨hentered.kept, hentered.serving, hentered.interest, hentered.eventFd⟩

theorem Pointed.openwrtConnected (h : Pointed s) (ho : Orderly s) {ptr : Nat}
    (hguard : s.server.openwrtLink ≠ 0 →
      s.server.openwrtConnfd ∈ numbers s ∧ s.server.openwrtConnfd ∉ s.nodes.map Node.connfd)
    (hread : s.server.openwrtLink ≠ 0 → ReadsEventFd s → s.eventFd.count = 0)
    (hconnected : OpenwrtConnected ptr s s') : KeepsPointers none s s' := by
  have hentered := h.enterOpenwrt ptr
  have hlast : openwrtNode ptr s ∈ (SessionThreads.enterOpenwrt ptr s).nodes :=
    List.mem_append_right _ (List.mem_singleton_self _)
  cases hconnected with
  | linkIsDown => exact ⟨h, fun _ hi _ => hi⟩
  | written hlink hwrite =>
      refine ⟨⟨hentered.kept, hentered.serving, hentered.interest, fun hreads _ => ?_⟩,
        fun _ hi _ => hi⟩
      exact ⟨_, hlast, by simp [hread hlink hreads, openwrtNode]⟩
  | failed hlink hwrite =>
      obtain ⟨hopened, hunused⟩ := hguard hlink
      have horderly := ho.enterOpenwrt ptr hopened hunused
      have hlisted : (openwrtNode ptr s).addr ∈
          connected (SessionThreads.enterOpenwrt ptr s).server := by
        change _ ∈ connected (SessionThreads.addNewUserNodeToList (openwrtNode ptr s) _)
        rw [connected_addNewUserNodeToList]
        exact List.mem_append_right _ (List.mem_singleton_self _)
      obtain ⟨u, hfind, haddr, -⟩ := horderly.held.found hlast hlisted
      have hnew : ∀ n ∈ s.nodes, n.addr ≠ u.addr := by
        intro n hn hsame
        exact Nat.lt_irrefl _ (hsame.trans haddr ▸ ho.held.bound n hn)
      have hdeleted := hentered.delUser horderly.held hfind
        (fun hserving => by
          obtain ⟨n, hn, hsame⟩ := List.mem_map.mp (h.serving u.addr hserving)
          exact hnew n hn hsame)
        (fun hreads hcount => by
          obtain ⟨n, hn, hptr⟩ := h.eventFd hreads hcount
          exact ⟨n, List.mem_append_left _ hn, hptr, hnew n hn⟩)
      refine ⟨hdeleted.pointed, fun i hi _ => hdeleted.registered i hi fun hsame => ?_⟩
      obtain ⟨n, hn, hnaddr, -⟩ := h.interest i hi
      exact hnew n hn (hnaddr.trans (Option.some.inj hsame))

theorem Pointed.handleOpenwrtDisconnect (h : Pointed s)
    (hok : SessionThreads.handleOpenwrtDisconnect { s with queue } = .ok s') :
    KeepsPointers deleted s s' := by
  unfold SessionThreads.handleOpenwrtDisconnect at hok
  split at hok
  · cases hok
  · obtain ⟨n, -, hok⟩ := bind_eq_ok.mp hok
    obtain rfl := Except.ok.inj hok
    exact h.same rfl ⟨rfl, rfl⟩ rfl rfl h.serving

theorem Pointed.handle (h : Pointed s) (ho : Orderly s) {ptr : Nat}
    (hguard : KeepsOrder s (.handle ptr)) (hfree : DeletesFree s (.handle ptr))
    (hok : eventLoop ptr s = .ok s') : KeepsPointers (deletes s (.handle ptr)) s s' := by
  simp only [eventLoop] at hok
  cases hqueue : s.queue with
  | nil =>
      rw [hqueue] at hok
      obtain rfl := Except.ok.inj hok
      exact ⟨h, fun _ hi _ => hi⟩
  | cons m queue =>
      rw [hqueue] at hok
      simp only [KeepsOrder, DeletesFree, hqueue, List.head?_cons] at hguard hfree
      have hpopped : KeepsPointers none s { s with queue } :=
        h.same rfl ⟨rfl, rfl⟩ rfl rfl h.serving
      cases m with
      | acceptNewUser addr => exact h.handleAcceptNewUser hok
      | delDisconnectUser addr =>
          simp only [deletes, hqueue, List.head?_cons]
          exact h.handleDelDisconnectUser ho hqueue hfree hok
      | openwrtConnected =>
          obtain rfl := Except.ok.inj hok
          simp only [deletes, hqueue, List.head?_cons]
          have hbase : Orderly { s with queue } :=
            ho.pop_same hqueue fun a next hnext => Option.some.inj hnext
          have hentered := hpopped.pointed.openwrtConnected hbase hguard hfree
            (handleOpenwrtConnected_connected ptr _)
          exact ⟨hentered.pointed, hentered.registered⟩
      | openwrtDisconnect => exact h.handleOpenwrtDisconnect hok
      | request addr =>
          obtain ⟨n, -, hok⟩ := bind_eq_ok.mp hok
          obtain rfl := Except.ok.inj hok
          exact h.same rfl ⟨rfl, rfl⟩ rfl rfl h.serving

theorem Pointed.step (h : Pointed s) (ho : Orderly s) (hguard : KeepsOrder s l)
    (hfree : DeletesFree s l) (hstep : Step s l s') : KeepsPointers (deletes s l) s s' := by
  obtain ⟨hpossible, hok⟩ := hstep
  cases l with
  | accept connfd ptr =>
      obtain rfl := Except.ok.inj hok
      exact h.accept ho.held hpossible.2.2.1 ptr
  | eventFd => exact h.eventFdReady hok
  | notify addr =>
      obtain ⟨n, hn, hok⟩ := bind_eq_ok.mp hok
      obtain ⟨hlive, rfl⟩ := mem_of_pointedTo hn
      split at hok
      · obtain rfl := Except.ok.inj hok
        exact ⟨h, fun _ hi _ => hi⟩
      · obtain rfl := Except.ok.inj hok
        refine h.same rfl ⟨rfl, rfl⟩ rfl rfl fun a ha => ?_
        rw [← Option.some.inj ha]
        exact List.mem_map_of_mem hlive
  | recv r => exact h.receive hok
  | linkDetect netStat connfd =>
      obtain rfl := Except.ok.inj hok
      exact h.linkDetectThread netStat connfd
  | handle ptr => exact h.handle ho hguard hfree hok

theorem pointed_started (hs : Started s) : Pointed s := by
  refine ⟨?_, ?_, ?_, fun _ hcount => absurd hs.count hcount⟩ <;>
    simp [hs.server, createServerThread, hs.serving, hs.interest]

theorem Pointed.carried (h : Pointed s) (ho : Orderly s) (hm : m ∈ s.queue)
    (ha : session? m = some a) : a ∈ s.nodes.map Node.addr := by
  have hlt : a < s.server.allocated := by
    by_contra hle
    have hnone := (through_absent (ho.fresh a (Nat.le_of_not_lt hle))).2
    exact hnone (notice m) (List.mem_map_of_mem hm) (about_notice.mpr ha)
  exact (h.kept a hlt).resolve_right (ho.unused hm ha)

theorem Pointed.eventFd_survives (h : Pointed s) :
    SessionThreads.eventFdReady s ≠ .error .afterFree := by
  simp only [SessionThreads.eventFdReady]
  split
  · simp
  · rename_i hreads
    split
    · simp
    · rename_i hcount
      obtain ⟨n, hn, hptr⟩ := h.eventFd hreads hcount
      have hsome : (s.nodes.find? fun n => n.ptr = s.eventFd.count).isSome :=
        List.find?_isSome.mpr ⟨n, hn, by simpa using hptr⟩
      obtain ⟨found, hfound⟩ := Option.isSome_iff_exists.mp hsome
      simp only [hfound]
      split
      · simp
      · split <;> simp

theorem Pointed.handle_survives (h : Pointed s) (ho : Orderly s) (ptr : Nat) :
    eventLoop ptr s ≠ .error .afterFree := by
  simp only [eventLoop]
  cases hqueue : s.queue with
  | nil => simp
  | cons m queue =>
      have hcarried : ∀ a, session? m = some a → a ∈ s.nodes.map Node.addr :=
        fun a ha => h.carried ho (hqueue ▸ List.mem_cons_self) ha
      cases m with
      | acceptNewUser addr | delDisconnectUser addr | request addr =>
          obtain ⟨n, hn⟩ := exists_of_live (s := { s with queue }) (hcarried addr rfl)
          simp [SessionThreads.handleAcceptNewUser, SessionThreads.handleDelDisconnectUser, hn,
            bind, Except.bind, pure, Except.pure]
      | openwrtConnected => simp
      | openwrtDisconnect =>
          simp only [SessionThreads.handleOpenwrtDisconnect]
          split
          · simp
          · rename_i u hfind
            obtain ⟨k, hk, haddr, -⟩ := ho.held.listed u (List.mem_of_find?_eq_some hfind)
            have hlive : u.addr ∈ s.nodes.map Node.addr := haddr ▸ List.mem_map_of_mem hk
            obtain ⟨n, hn⟩ := exists_of_live (s := { s with queue }) hlive
            simp [hn, bind, Except.bind, pure, Except.pure]

/-- No step that the threads can take next reads a session that is freed. -/
theorem Pointed.survives (h : Pointed s) (ho : Orderly s)
    (hnotify : ∀ a, l = .notify a → a ∈ s.nodes.map Node.addr) :
    execute s l ≠ .error .afterFree := by
  cases l with
  | accept | linkDetect => simp [execute]
  | eventFd => exact h.eventFd_survives
  | notify addr =>
      obtain ⟨n, hn⟩ := exists_of_live (hnotify addr rfl)
      simp only [execute, processRecvEvent, hn, bind, Except.bind, pure, Except.pure]
      split <;> simp
  | recv r =>
      simp only [execute, SessionThreads.receive]
      split
      · simp
      · rename_i addr hserving
        obtain ⟨n, hn⟩ := exists_of_live (h.serving addr hserving)
        cases r <;> simp [hn, bind, Except.bind, pure, Except.pure]
  | handle ptr => exact h.handle_survives ho ptr

end GwWeb.SessionTeardown
