import GwWeb.HeldSessions

/-!
How a session enters, is used and is released while two threads and the event loop
pass its pointer around.
-/

namespace GwWeb.SessionTeardown

open QueueLifecycle
open TransitionRuns
open GwWeb.WebCommon
open GwWeb.Server hiding addNewUserNodeToList
open GwWeb.SessionThreads

/-- What a message is to the session it carries. -/
def notice : Msg → Notice Nat
  | .acceptNewUser addr => .enter addr
  | .delDisconnectUser addr => .leave addr
  | .request addr => .use addr
  | .openwrtConnected => .other
  | .openwrtDisconnect => .other

/-- The session that a message carries a pointer to. -/
def session? : Msg → Option Nat
  | .acceptNewUser addr => some addr
  | .delDisconnectUser addr => some addr
  | .request addr => some addr
  | .openwrtConnected => none
  | .openwrtDisconnect => none

/-- The stage of a session once the queue is drained. -/
def drained (s : State) (a : Nat) : Option Stage := (stage s a).through a (s.queue.map notice)

/-- `MSG_OPENWRT_CONNECTED` enters a session for a descriptor that is open, and that
no other session has; `MSG_OPENWRT_DISCONNECT` deletes one that no deletion is queued
for. -/
def HandledInOrder (s : State) : Option Msg → Prop
  | some .openwrtConnected =>
      s.server.openwrtLink ≠ 0 →
        s.server.openwrtConnfd ∈ numbers s ∧ s.server.openwrtConnfd ∉ s.nodes.map Node.connfd
  | some .openwrtDisconnect =>
      ∀ n ∈ findUserNodeByConnfd s.server.openwrtConnfd s.server,
        .delDisconnectUser n.addr ∉ s.queue
  | _ => True

/-- The epoll thread posts for a session only while no deletion of it is queued. -/
def KeepsOrder (s : State) : Label → Prop
  | .recv .message => ∀ a ∈ s.serving, .delDisconnectUser a ∉ s.queue
  | .recv .closed => ∀ a ∈ s.serving, .delDisconnectUser a ∉ s.queue
  | .handle _ => HandledInOrder s s.queue.head?
  | _ => True

instance (s : State) (m : Option Msg) : Decidable (HandledInOrder s m) :=
  match m with
  | some .openwrtConnected => inferInstanceAs (Decidable (_ → _ ∧ _))
  | some .openwrtDisconnect =>
      inferInstanceAs (Decidable (∀ n ∈ findUserNodeByConnfd s.server.openwrtConnfd s.server,
        .delDisconnectUser n.addr ∉ s.queue))
  | some (.acceptNewUser _) => isTrue trivial
  | some (.delDisconnectUser _) => isTrue trivial
  | some (.request _) => isTrue trivial
  | none => isTrue trivial

instance (s : State) (l : Label) : Decidable (KeepsOrder s l) :=
  match l with
  | .recv .message | .recv .closed =>
      inferInstanceAs (Decidable (∀ a ∈ s.serving, .delDisconnectUser a ∉ s.queue))
  | .handle _ => inferInstanceAs (Decidable (HandledInOrder s s.queue.head?))
  | .recv .again => isTrue trivial
  | .accept _ _ => isTrue trivial
  | .eventFd => isTrue trivial
  | .notify _ => isTrue trivial
  | .linkDetect _ _ => isTrue trivial

/-- What is queued fits as well: no message comes out of order, and a node that is
not freed enters. -/
structure Orderly (s : State) : Prop where
  held : Held s
  ordered : ∀ a, drained s a ≠ none
  known : ∀ n ∈ s.nodes, drained s n.addr ≠ some .absent
  fresh : ∀ a, s.server.allocated ≤ a → drained s a = some .absent

variable {s s' : State} {l : Label} {a : Nat} {m : Msg} {queue : List Msg}

theorem about_notice : (notice m).About a ↔ session? m = some a := by
  cases m <;> simp [notice, session?, Notice.About]

theorem Orderly.unused (h : Orderly s) (hm : m ∈ s.queue) (hsession : session? m = some a) :
    a ∉ s.server.released := by
  intro hreleased
  obtain ⟨last, hlast⟩ := Option.ne_none_iff_exists'.mp (h.ordered a)
  rw [drained, stage_eq_gone_iff.mpr hreleased] at hlast
  exact (through_gone hlast).2 (notice m) (List.mem_map_of_mem hm) (about_notice.mpr hsession)

theorem drained_postMsg (m : Msg) (s : State) (a : Nat) :
    drained (postMsg m s) a = (drained s a).bind fun last => last.after a (notice m) := by
  simp only [drained, postMsg, List.map_append, List.map_cons, List.map_nil]
  exact through_concat _ _

theorem drained_postMsg_of_ne (h : session? m ≠ some a) :
    drained (postMsg m s) a = drained s a := by
  rw [drained_postMsg]
  cases drained s a with
  | none => rfl
  | some last => exact after_eq_self fun habout => h (about_notice.mp habout)

theorem Orderly.post (h : Orderly s) (hm : ∀ a, session? m = some a → drained s a = some .present)
    (hother : ∀ a, m ≠ .acceptNewUser a) : Orderly (postMsg m s) := by
  have hposted : ∀ a, session? m = some a →
      drained (postMsg m s) a ≠ none ∧ drained (postMsg m s) a ≠ some .absent := by
    intro a ha
    rw [drained_postMsg, hm a ha]
    cases m with
    | acceptNewUser b => exact absurd rfl (hother b)
    | delDisconnectUser b | request b =>
        obtain rfl := Option.some.inj ha
        simp [notice, Stage.after]
    | openwrtConnected | openwrtDisconnect => cases ha
  have hheld : Held (postMsg m s) := h.held.same (.of_eq rfl rfl rfl fun _ hi => hi)
  refine ⟨hheld, fun a => ?_, fun n hn => ?_, fun a ha => ?_⟩
  · by_cases hsession : session? m = some a
    · exact (hposted a hsession).1
    · rw [drained_postMsg_of_ne hsession]
      exact h.ordered a
  · by_cases hsession : session? m = some n.addr
    · exact (hposted n.addr hsession).2
    · rw [drained_postMsg_of_ne hsession]
      exact h.known n hn
  · have habsent := h.fresh a ha
    rw [drained_postMsg_of_ne, habsent]
    intro hsession
    rw [hm a hsession] at habsent
    cases habsent

theorem Orderly.present (h : Orderly s) {n : Node} (hn : n ∈ s.nodes)
    (hdel : .delDisconnectUser n.addr ∉ s.queue) : drained s n.addr = some .present := by
  obtain ⟨last, hlast⟩ := Option.ne_none_iff_exists'.mp (h.ordered n.addr)
  cases last with
  | present => exact hlast
  | absent => exact absurd hlast (h.known n hn)
  | gone =>
      have hstage : stage s n.addr ≠ .gone := fun hgone =>
        (h.held.freed _ (stage_eq_gone_iff.mp hgone)).2 (List.mem_map_of_mem hn)
      obtain ⟨m, hm, hleave⟩ := List.mem_map.mp (leave_mem_of_gone hlast hstage)
      cases m with
      | delDisconnectUser b =>
          obtain rfl := Notice.leave.inj hleave
          exact absurd hm hdel
      | acceptNewUser | request | openwrtConnected | openwrtDisconnect => cases hleave

theorem Orderly.same (h : Orderly s) (hsame : SameSessions s s') (hqueue : s'.queue = s.queue) :
    Orderly s' := by
  have hdrained : ∀ a, drained s' a = drained s a := by
    intro a
    rw [drained, drained, stage_same hsame, hqueue]
  refine ⟨h.held.same hsame, fun a => hdrained a ▸ h.ordered a, fun n hn => ?_, fun a ha => ?_⟩
  · rw [hdrained]
    exact h.known n (hsame.nodes ▸ hn)
  · rw [hdrained]
    exact h.fresh a (hsame.allocated ▸ ha)

section Steps

theorem acceptConnection_eq (h : Held s) {connfd : Int} (hnew : connfd ∉ numbers s) (ptr : Nat) :
    acceptConnection connfd ptr s =
      postMsg (.acceptNewUser s.server.allocated)
        { (newUserNode ptr connfd (openFile connfd s)).2 with
          interest := s.interest ++ [⟨connfd, s.server.allocated⟩] } := by
  have hunregistered : connfd ∉ s.interest.map Interest.connfd := by
    intro hin
    obtain ⟨i, hi, rfl⟩ := List.mem_map.mp hin
    exact hnew (h.interest i hi)
  simp [acceptConnection, newUserNode, openFile, epollCtlAdd, hunregistered, numbers]

theorem Orderly.accept (h : Orderly s) {connfd : Int} (hnew : connfd ∉ numbers s) (ptr : Nat) :
    Orderly (acceptConnection connfd ptr s) := by
  have hopenfile : SameSessions s (openFile connfd s) :=
    sameSessions_openFile connfd s
  have hopened : connfd ∈ numbers (openFile connfd s) := by simp [numbers, openFile]
  have hfree : connfd ∉ s.nodes.map Node.connfd := by
    intro hin
    obtain ⟨n, hn, rfl⟩ := List.mem_map.mp hin
    exact hnew (h.held.opened n hn)
  have hheld : Held (newUserNode ptr connfd (openFile connfd s)).2 :=
    (h.held.same hopenfile).newUserNode ptr hopened hfree
  have hposted : ∀ a, a ≠ s.server.allocated →
      drained (acceptConnection connfd ptr s) a = drained s a := by
    intro a hne
    rw [acceptConnection_eq h.held hnew, drained_postMsg_of_ne (by simpa [session?] using hne.symm)]
    rfl
  have hlast : drained (acceptConnection connfd ptr s) s.server.allocated = some .present := by
    have habsent := h.fresh s.server.allocated (Nat.le_refl _)
    rw [acceptConnection_eq h.held hnew, drained_postMsg]
    change (drained s s.server.allocated).bind _ = _
    rw [habsent]
    simp [notice, Stage.after]
  refine ⟨?_, fun a => ?_, fun n hn => ?_, fun a ha => ?_⟩
  · rw [acceptConnection_eq h.held hnew]
    refine hheld.same ⟨rfl, rfl, rfl, rfl, fun _ hc => hc, fun i hi => ?_⟩
    rcases List.mem_append.mp hi with hold | hnew
    · exact .inl hold
    · rw [List.mem_singleton.mp hnew]
      exact .inr hopened
  · rcases eq_or_ne a s.server.allocated with rfl | hne
    · simp [hlast]
    · rw [hposted a hne]
      exact h.ordered a
  · rw [acceptConnection_eq h.held hnew] at hn
    rcases List.mem_append.mp hn with hold | hnew'
    · have hlt : n.addr < s.server.allocated := h.held.bound n hold
      rw [hposted n.addr (Nat.ne_of_lt hlt)]
      exact h.known n hold
    · rw [List.mem_singleton.mp hnew']
      change drained (acceptConnection connfd ptr s) s.server.allocated ≠ _
      simp [hlast]
  · rw [acceptConnection_eq h.held hnew] at ha
    have hlt : s.server.allocated < a := ha
    rw [hposted a (Nat.ne_of_gt hlt)]
    exact h.fresh a (Nat.le_of_lt hlt)

theorem drained_pop (hqueue : s.queue = m :: queue) (hq : s'.queue = queue)
    (hstage : (stage s a).after a (notice m) = some (stage s' a)) : drained s' a = drained s a := by
  rw [drained, drained, hqueue, hq, List.map_cons, Stage.through, hstage]
  rfl

theorem Orderly.head (h : Orderly s) (hqueue : s.queue = m :: queue) (a : Nat) :
    ∃ next, (stage s a).after a (notice m) = some next := by
  obtain ⟨last, hlast⟩ := Option.ne_none_iff_exists'.mp (h.ordered a)
  rw [drained, hqueue, List.map_cons] at hlast
  obtain ⟨next, hnext, -⟩ := through_cons.mp hlast
  exact ⟨next, hnext⟩

theorem Orderly.pop (h : Orderly s) (hqueue : s.queue = m :: queue) (hq : s'.queue = queue)
    (hheld : Held s') (hallocated : s'.server.allocated = s.server.allocated)
    (hnodes : ∀ n ∈ s'.nodes, n ∈ s.nodes)
    (hstage : ∀ a next, (stage s a).after a (notice m) = some next → stage s' a = next) :
    Orderly s' := by
  have hdrained : ∀ a, drained s' a = drained s a := by
    intro a
    obtain ⟨next, hnext⟩ := h.head hqueue a
    exact drained_pop hqueue hq (by rw [hnext, hstage a next hnext])
  refine ⟨hheld, fun a => hdrained a ▸ h.ordered a, fun n hn => ?_, fun a ha => ?_⟩
  · rw [hdrained]
    exact h.known n (hnodes n hn)
  · rw [hdrained]
    exact h.fresh a (hallocated ▸ ha)

theorem Orderly.pop_same (h : Orderly s) (hqueue : s.queue = m :: queue)
    (hstage : ∀ a next, (stage s a).after a (notice m) = some next → stage s a = next) :
    Orderly { s with queue } := by
  have hheld : Held { s with queue } :=
    h.held.same (.of_eq rfl rfl rfl fun _ hi => hi)
  exact h.pop hqueue rfl hheld rfl (fun _ hn => hn) hstage

theorem Orderly.handleAcceptNewUser (h : Orderly s) {addr : Nat}
    (hqueue : s.queue = .acceptNewUser addr :: queue)
    (hok : SessionThreads.handleAcceptNewUser addr { s with queue } = .ok s') : Orderly s' := by
  obtain ⟨n, hn, hok⟩ := bind_eq_ok.mp hok
  obtain rfl := Except.ok.inj hok
  obtain ⟨hlive, rfl⟩ := mem_of_pointedTo hn
  have habsent : stage s n.addr = .absent := by
    obtain ⟨next, hnext⟩ := h.head hqueue n.addr
    by_contra hne
    simp [notice, Stage.after, hne] at hnext
  obtain ⟨hnew, hunreleased⟩ := stage_eq_absent habsent
  have hheld : Held { s with queue } :=
    h.held.same (.of_eq rfl rfl rfl fun _ hi => hi)
  refine h.pop hqueue rfl (hheld.enter hlive hnew) rfl (fun _ hm => hm) fun a next hnext => ?_
  rcases eq_or_ne a n.addr with rfl | hne
  · simp only [notice, Stage.after, habsent, if_true, Option.some.injEq] at hnext
    rw [← hnext]
    exact stage_enter_self (s := { s with queue }) hunreleased
  · simp only [notice, Stage.after, hne.symm, if_false, Option.some.injEq] at hnext
    rw [← hnext]
    exact stage_enter_of_ne (s := { s with queue }) hne

theorem Orderly.handleDelDisconnectUser (h : Orderly s) {addr : Nat}
    (hqueue : s.queue = .delDisconnectUser addr :: queue)
    (hok : SessionThreads.handleDelDisconnectUser addr { s with queue } = .ok s') :
    Orderly s' := by
  obtain ⟨n, hn, hok⟩ := bind_eq_ok.mp hok
  obtain rfl := Except.ok.inj hok
  obtain ⟨hlive, rfl⟩ := mem_of_pointedTo hn
  have hpresent : stage s n.addr = .present := by
    obtain ⟨next, hnext⟩ := h.head hqueue n.addr
    by_contra hne
    simp [notice, Stage.after, hne] at hnext
  have hlisted : n.addr ∈ connected s.server := stage_eq_present hpresent
  have hbase : SameSessions s (unregisterEvent n.connfd { s with queue }) :=
    .of_eq rfl rfl rfl fun _ hi => List.mem_of_mem_filter hi
  obtain ⟨u, hfind, haddr, -⟩ := h.held.found hlive hlisted
  have hleft := (h.held.same hbase).delUser hfind
  refine h.pop hqueue hleft.queue hleft.held hleft.allocated (fun m hm => (hleft.nodes m hm).1)
    fun a next hnext => ?_
  rcases eq_or_ne a n.addr with rfl | hne
  · simp only [notice, Stage.after, hpresent, if_true, Option.some.injEq] at hnext
    rw [← hnext, ← haddr]
    exact hleft.gone
  · simp only [notice, Stage.after, hne.symm, if_false, Option.some.injEq] at hnext
    rw [← hnext, hleft.others a (haddr ▸ hne)]
    rfl

theorem Orderly.enterOpenwrt (h : Orderly s) (ptr : Nat)
    (hopened : s.server.openwrtConnfd ∈ numbers s)
    (hfree : s.server.openwrtConnfd ∉ s.nodes.map Node.connfd) :
    Orderly (SessionThreads.enterOpenwrt ptr s) := by
  obtain ⟨hstage, hnone⟩ := through_absent (h.fresh s.server.allocated (Nat.le_refl _))
  obtain ⟨hout, hunreleased⟩ := stage_eq_absent hstage
  let s₁ := (newUserNode ptr s.server.openwrtConnfd s).2
  have hheld : Held (SessionThreads.enterOpenwrt ptr s) :=
    (h.held.newUserNode ptr hopened hfree).enter (n := openwrtNode ptr s)
      (List.mem_append_right _ (List.mem_singleton_self _)) hout
  have hothers : ∀ a, a ≠ s.server.allocated →
      drained (SessionThreads.enterOpenwrt ptr s) a = drained s a := by
    intro a hne
    have hstage : stage (SessionThreads.enterOpenwrt ptr s) a = stage s a :=
      stage_enter_of_ne (s := s₁) (n := openwrtNode ptr s) hne
    rw [drained, hstage]
    rfl
  have hself : drained (SessionThreads.enterOpenwrt ptr s) s.server.allocated =
      some .present := by
    have hpresent : stage (SessionThreads.enterOpenwrt ptr s) s.server.allocated = .present :=
      stage_enter_self (s := s₁) (n := openwrtNode ptr s) hunreleased
    rw [drained, hpresent]
    exact through_of_not_about hnone
  refine ⟨hheld, fun a => ?_, fun n hn => ?_, fun a ha => ?_⟩
  · rcases eq_or_ne a s.server.allocated with rfl | hne
    · simp [hself]
    · rw [hothers a hne]
      exact h.ordered a
  · rcases List.mem_append.mp hn with hold | hnew
    · rw [hothers n.addr (Nat.ne_of_lt (h.held.bound n hold))]
      exact h.known n hold
    · rw [List.mem_singleton.mp hnew]
      exact fun hnone => by simp [hself] at hnone
  · have hlt : s.server.allocated < a := ha
    rw [hothers a (Nat.ne_of_gt hlt)]
    exact h.fresh a (Nat.le_of_lt hlt)

theorem Orderly.delUser (h : Orderly s) {connfd : Int} {u : UserSessionNode}
    (hfind : findUserNodeByConnfd connfd s.server = some u)
    (hnone : ∀ m ∈ s.queue, session? m ≠ some u.addr) :
    Orderly (SessionThreads.delUser connfd s) := by
  have hleft := h.held.delUser hfind
  have hothers : ∀ a, a ≠ u.addr → drained (SessionThreads.delUser connfd s) a = drained s a := by
    intro a hne
    rw [drained, hleft.others a hne, hleft.queue]
    rfl
  have hself : drained (SessionThreads.delUser connfd s) u.addr = some .gone := by
    rw [drained, hleft.gone, hleft.queue]
    refine through_of_not_about fun m hm => ?_
    obtain ⟨posted, hposted, rfl⟩ := List.mem_map.mp hm
    exact fun habout => hnone posted hposted (about_notice.mp habout)
  refine ⟨hleft.held, fun a => ?_, fun n hn => ?_, fun a ha => ?_⟩
  · rcases eq_or_ne a u.addr with rfl | hne
    · simp [hself]
    · rw [hothers a hne]
      exact h.ordered a
  · obtain ⟨hn, hne⟩ := hleft.nodes n hn
    rw [hothers n.addr hne]
    exact h.known n hn
  · obtain ⟨n, hn, haddr, -⟩ := h.held.listed u (List.mem_of_find?_eq_some hfind)
    have hlt : u.addr < s.server.allocated := haddr ▸ h.held.bound n hn
    rw [hleft.allocated] at ha
    rw [hothers a (by omega)]
    exact h.fresh a ha

theorem Orderly.openwrtConnected (h : Orderly s) {ptr : Nat}
    (hfree : s.server.openwrtLink ≠ 0 →
      s.server.openwrtConnfd ∈ numbers s ∧ s.server.openwrtConnfd ∉ s.nodes.map Node.connfd)
    (hconnected : OpenwrtConnected ptr s s') : Orderly s' := by
  cases hconnected with
  | linkIsDown => exact h
  | written hlink hwrite =>
      obtain ⟨hopened, hfree⟩ := hfree hlink
      exact (h.enterOpenwrt ptr hopened hfree).same (.of_eq rfl rfl rfl fun _ hi => hi) rfl
  | failed hlink hwrite =>
      obtain ⟨hopened, hfree⟩ := hfree hlink
      have hentered := h.enterOpenwrt ptr hopened hfree
      have hlisted : (openwrtNode ptr s).addr ∈
          connected (SessionThreads.enterOpenwrt ptr s).server := by
        change _ ∈ connected (SessionThreads.addNewUserNodeToList (openwrtNode ptr s) _)
        rw [connected_addNewUserNodeToList]
        exact List.mem_append_right _ (List.mem_singleton_self _)
      obtain ⟨u, hfind, haddr, -⟩ := hentered.held.found (n := openwrtNode ptr s)
        (List.mem_append_right _ (List.mem_singleton_self _)) hlisted
      refine hentered.delUser hfind fun m hm hsession => ?_
      have hnone := (through_absent (h.fresh s.server.allocated (Nat.le_refl _))).2
      exact hnone (notice m) (List.mem_map_of_mem hm)
        (about_notice.mpr (hsession.trans (congrArg some haddr)))

theorem Orderly.handleOpenwrtDisconnect (h : Orderly s)
    (hqueue : s.queue = .openwrtDisconnect :: queue)
    (hdel : ∀ n ∈ findUserNodeByConnfd s.server.openwrtConnfd s.server,
      .delDisconnectUser n.addr ∉ s.queue)
    (hok : SessionThreads.handleOpenwrtDisconnect { s with queue } = .ok s') : Orderly s' := by
  have hbase : Orderly { s with queue } :=
    h.pop_same hqueue fun a next hnext => Option.some.inj hnext
  unfold SessionThreads.handleOpenwrtDisconnect at hok
  split at hok
  · cases hok
  · rename_i u hfind
    obtain ⟨n, hn, hok⟩ := bind_eq_ok.mp hok
    obtain rfl := Except.ok.inj hok
    obtain ⟨hlive, haddr⟩ := mem_of_pointedTo hn
    refine hbase.post (fun a ha => ?_) (by simp)
    obtain rfl := Option.some.inj ha
    refine hbase.present hlive ?_
    rw [haddr]
    intro hin
    exact hdel u hfind (hqueue ▸ List.mem_cons_of_mem _ hin)

theorem Orderly.step (h : Orderly s) (hguard : KeepsOrder s l) (hstep : Step s l s') :
    Orderly s' := by
  obtain ⟨hpossible, hok⟩ := hstep
  cases l with
  | accept connfd ptr =>
      obtain rfl := Except.ok.inj hok
      exact h.accept hpossible.2.2.1 ptr
  | eventFd =>
      obtain ⟨hsame, hqueue⟩ := eventFdReady_same hok
      exact h.same hsame hqueue
  | notify addr =>
      obtain ⟨n, -, hok⟩ := bind_eq_ok.mp hok
      split at hok
      · obtain rfl := Except.ok.inj hok
        exact h
      · obtain rfl := Except.ok.inj hok
        exact h.same (.of_eq rfl rfl rfl fun _ hi => hi) rfl
  | recv r =>
      simp only [execute, receive] at hok
      cases hserving : s.serving with
      | none =>
          rw [hserving] at hok
          obtain rfl := Except.ok.inj hok
          exact h
      | some addr =>
          rw [hserving] at hok
          obtain ⟨n, hn, hok⟩ := bind_eq_ok.mp hok
          obtain ⟨hlive, rfl⟩ := mem_of_pointedTo hn
          cases r with
          | again =>
              obtain rfl := Except.ok.inj hok
              exact h.same (.of_eq rfl rfl rfl fun _ hi => hi) rfl
          | message =>
              obtain rfl := Except.ok.inj hok
              refine h.post (fun a ha => ?_) (by simp)
              obtain rfl := Option.some.inj ha
              exact h.present hlive (hguard _ hserving)
          | closed =>
              obtain rfl := Except.ok.inj hok
              have hended : Orderly { s with
                  serving := none
                  log := { s.log with peerClosed := s.log.peerClosed ++
                    (s.opened.filter fun d => d.number = n.connfd).map Descriptor.file } } :=
                h.same (.of_eq rfl rfl rfl fun _ hi => hi) rfl
              refine hended.post (fun a ha => ?_) (by simp)
              obtain rfl := Option.some.inj ha
              exact hended.present hlive (hguard _ hserving)
  | linkDetect netStat connfd =>
      obtain rfl := Except.ok.inj hok
      unfold linkDetectThread
      split
      · split
        · dsimp only
          refine Orderly.post (h.same ?_ rfl) (by simp [session?]) (by simp)
          refine ⟨rfl, rfl, rfl, rfl, fun c hc => ?_, fun _ hi => .inl hi⟩
          exact (sameSessions_openFile connfd s).numbers c hc
        · exact h
      · split
        · refine Orderly.post (h.same ?_ rfl) (by simp [session?]) (by simp)
          exact ⟨rfl, rfl, rfl, rfl, fun _ hc => hc, fun _ hi => .inl hi⟩
        · exact h
  | handle ptr =>
      simp only [execute, eventLoop] at hok
      cases hqueue : s.queue with
      | nil =>
          rw [hqueue] at hok
          obtain rfl := Except.ok.inj hok
          exact h
      | cons m queue =>
          rw [hqueue] at hok
          simp only [KeepsOrder, hqueue, List.head?_cons] at hguard
          cases m with
          | acceptNewUser addr => exact h.handleAcceptNewUser hqueue hok
          | delDisconnectUser addr => exact h.handleDelDisconnectUser hqueue hok
          | openwrtConnected =>
              obtain rfl := Except.ok.inj hok
              have hbase : Orderly { s with queue } :=
                h.pop_same hqueue fun a next hnext => Option.some.inj hnext
              exact hbase.openwrtConnected hguard (handleOpenwrtConnected_connected ptr _)
          | openwrtDisconnect =>
              exact h.handleOpenwrtDisconnect hqueue hguard hok
          | request addr =>
              obtain ⟨n, -, hok⟩ := bind_eq_ok.mp hok
              obtain rfl := Except.ok.inj hok
              refine h.pop_same hqueue fun a next hnext => ?_
              simp only [notice, Stage.after] at hnext
              split at hnext
              · split at hnext
                · rename_i hpresent
                  rw [hpresent]
                  exact Option.some.inj hnext
                · cases hnext
              · exact Option.some.inj hnext

theorem orderly_started (hs : Started s) : Orderly s := by
  have hserver := hs.server
  have hstage : ∀ a, drained s a = some .absent := by
    intro a
    simp [drained, hs.queue, stage, hserver, createServerThread, connected, Stage.through]
  refine ⟨⟨?_, ?_, ?_, ?_, ?_, ?_, ?_, ?_, ?_⟩, ?_, ?_, fun a _ => hstage a⟩ <;>
    simp [hs.nodes, hs.interest, hserver, createServerThread, connected, hstage]

end Steps

end GwWeb.SessionTeardown
