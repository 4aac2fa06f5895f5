import GwWeb.EventProcess

/-!
Which sessions there are, apart from what they do: the list of `server.c` as it
is entered and left, and what each event of the loop makes of it.
-/

namespace GwWeb.SessionRoster

open FirstMatch
open GwWeb.WebCommon
open GwWeb.Server
open GwWeb.EventProcess

/-- The session a message points to, as long as its node is not freed. -/
def pointedTo (asker : Nat) (g : GServerPara) : Except Fault UserSessionNode :=
  match g.userSessionNodeHead.find? fun n => n.addr = asker with
  | none => .error .afterFree
  | some n => .ok n

/-- A session by its address, its id and its descriptor. -/
structure Member where
  addr : Nat
  nodeId : Int
  connfd : Int
  deriving DecidableEq

/-- The sessions, the next id and the next address. -/
structure Roster where
  members : List Member
  nextId : Int
  allocated : Nat

def member (n : UserSessionNode) : Member := ⟨n.addr, n.nodeId, n.connfd⟩

def members (g : GServerPara) : List Member := g.userSessionNodeHead.map member

def roster (g : GServerPara) : Roster := ⟨members g, g.userNodeIdInit, g.allocated⟩

/-- Ids are 1 to 1024, then 1 again. -/
def followingId (id : Int) : Int := if id + 1 = 1025 then 1 else id + 1

/-- A session enters under the next id. -/
def Roster.enter (connfd : Int) (r : Roster) : Roster :=
  ⟨r.members ++ [⟨r.allocated, r.nextId, connfd⟩], followingId r.nextId, r.allocated + 1⟩

/-- The first session with the descriptor goes. -/
def Roster.leave (connfd : Int) (r : Roster) : Roster :=
  { r with members := r.members.eraseP fun m => m.connfd = connfd }

/-- The sessions behind an event. -/
def rosterAfter (s : State) (l : Label) : Roster :=
  match l.event with
  | .acceptNewUser connfd => (roster s.server).enter connfd
  | .delDisconnectUser connfd => (roster s.server).leave connfd
  | .openwrtConnected =>
      if s.server.openwrtLink = 0 then roster s.server
      else if l.replies.eventfdWrite = -1 then
        ((roster s.server).enter s.server.openwrtConnfd).leave s.server.openwrtConnfd
      else (roster s.server).enter s.server.openwrtConnfd
  | _ => roster s.server

theorem mem_of_pointedTo {asker : Nat} {g : GServerPara} {n : UserSessionNode}
    (h : pointedTo asker g = .ok n) : n ∈ g.userSessionNodeHead ∧ n.addr = asker := by
  unfold pointedTo at h
  split at h
  · cases h
  · rename_i n' hfind
    obtain rfl := Except.ok.inj h
    exact ⟨List.mem_of_find?_eq_some hfind, by simpa using List.find?_some hfind⟩

theorem members_recordAction (connfd : Int) (f : RecordAction → RecordAction) (g : GServerPara) :
    members (recordAction connfd f g) = members g := by
  unfold members recordAction
  apply map_updateFirst member
  intro n _
  rfl

@[simp] theorem roster_recordAction (connfd : Int) (f : RecordAction → RecordAction)
    (g : GServerPara) : roster (recordAction connfd f g) = roster g := by
  simp only [roster, members_recordAction]
  rfl

@[simp] theorem roster_addNewUserNodeToList (connfd : Int) (g : GServerPara) :
    roster (addNewUserNodeToList connfd g) = (roster g).enter connfd := by
  simp only [roster, members, addNewUserNodeToList, Roster.enter, List.map_append]
  rfl

theorem roster_delUser {connfd : Int} {r : Replies} {s s' : State}
    (h : delUser connfd r s = .ok s') : roster s'.server = (roster s.server).leave connfd := by
  have hlist : members (delUserNodeInList connfd s.server).1 =
      (members s.server).eraseP fun m => m.connfd = connfd := by
    simp only [members, delUserNodeInList, unlinkLoop_list, List.eraseP_map]
    rfl
  unfold delUser at h
  cases hnode : (delUserNodeInList connfd s.server).2 with
  | none =>
      simp only [hnode] at h
      obtain rfl := Except.ok.inj h
      simp only [roster, Roster.leave, ← hlist]
      rfl
  | some n =>
      simp only [hnode] at h
      obtain ⟨broker, -, h⟩ := bind_eq_ok.mp h
      obtain ⟨dma, -, h⟩ := bind_eq_ok.mp h
      obtain rfl := Except.ok.inj h
      simp only [roster, Roster.leave, ← hlist]
      rfl

theorem roster_recordRssiSaveEnable {connfd : Int} {root : CJson} {g g' : GServerPara}
    (h : recordRssiSaveEnable connfd root g = .ok g') : roster g' = roster g := by
  obtain ⟨flag, -, h⟩ := bind_eq_ok.mp h
  cases flag <;> obtain rfl := Except.ok.inj h <;> simp

theorem roster_recordCsiSaveEnable {connfd : Int} {root : CJson} {g g' : GServerPara}
    (h : recordCsiSaveEnable connfd root g = .ok g') : roster g' = roster g := by
  obtain ⟨flag, -, h⟩ := bind_eq_ok.mp h
  cases flag <;> obtain rfl := Except.ok.inj h <;> simp

theorem roster_handleOpenwrtConnected {r : Replies} {s s' : State}
    (h : handleOpenwrtConnected r s = .ok s') :
    roster s'.server = rosterAfter s ⟨.openwrtConnected, r⟩ := by
  unfold handleOpenwrtConnected at h
  unfold rosterAfter
  split at h
  · rename_i hlink
    obtain rfl := Except.ok.inj h
    simp [hlink]
  · rename_i hlink
    obtain ⟨s₂, hs₂, h⟩ := bind_eq_ok.mp h
    obtain rfl := Except.ok.inj h
    split at hs₂
    · rename_i hwrite
      have hleft : roster s₂.server = ((roster s.server).enter s.server.openwrtConnfd).leave
          s.server.openwrtConnfd := by
        rw [← roster_addNewUserNodeToList]
        exact roster_delUser hs₂
      simpa [hlink, hwrite, enableBrokerCallback] using hleft
    · rename_i hwrite
      obtain rfl := Except.ok.inj hs₂
      simp [hlink, hwrite, enableBrokerCallback]

theorem roster_eventLoop {s s' : State} {l : Label} (h : eventLoop s l = .ok s') :
    roster s'.server = rosterAfter s l := by
  have handled := handled_of_eventLoop h
  rcases l with ⟨event, r⟩
  cases handled with
  | acceptNewUser connfd =>
      simp [handleAcceptNewUser, enableBrokerCallback, enableDmaCallback, rosterAfter]
  | delDisconnectUser connfd _ hdel => exact roster_delUser hdel
  | openwrtConnected _ hconnected => exact roster_handleOpenwrtConnected hconnected
  | inquiryRssi connfd ret broker hopen =>
      dsimp only
      split
      · exact roster_recordAction _ _ _
      · rfl
  | controlRssi connfd ret json broker server hsave hrecord =>
      split at hrecord
      · exact roster_recordRssiSaveEnable hrecord
      · obtain rfl := Except.ok.inj hrecord
        rfl
  | controlSaveIqData connfd ret json dma server hsave hrecord =>
      exact roster_recordCsiSaveEnable hrecord
  | startCsi connfd =>
      unfold handleStartCsi
      split
      · rfl
      · dsimp only
        split
        · exact roster_recordAction _ _ _
        · rfl
  | startConstellation connfd =>
      unfold handleStartConstellation
      split
      · rfl
      · exact roster_recordAction _ _ _
  | stopCsi connfd | stopConstellation connfd => exact roster_recordAction _ _ _
  | _ => rfl

theorem sessionConnfds_roster (g : GServerPara) :
    (roster g).members.map Member.connfd = sessionConnfds g := by
  simp [roster, members, sessionConnfds, member]

/-- A session that goes as soon as it has entered takes an older one of its
connection instead, if there is one. -/
theorem Roster.leave_enter (connfd : Int) (r : Roster) :
    (r.enter connfd).leave connfd =
      if connfd ∈ r.members.map Member.connfd then (r.leave connfd).enter connfd
      else ⟨r.members, followingId r.nextId, r.allocated + 1⟩ := by
  split
  · rename_i hin
    obtain ⟨m, hm, hconnfd⟩ := List.mem_map.mp hin
    simp only [Roster.leave, Roster.enter, Roster.mk.injEq, and_true]
    exact List.eraseP_append_left (by simpa using hconnfd) _ hm
  · rename_i hin
    have hnone : ∀ m ∈ r.members, ¬ (decide (m.connfd = connfd) = true) := by
      intro m hm hconnfd
      exact hin (List.mem_map.mpr ⟨m, hm, by simpa using hconnfd⟩)
    simp only [Roster.leave, Roster.enter]
    rw [List.eraseP_append_right _ hnone]
    simp

/-- Every member was allocated, at an address of its own. -/
structure Roster.Numbered (r : Roster) : Prop where
  bound : ∀ m ∈ r.members, m.addr < r.allocated
  nodup : (r.members.map Member.addr).Nodup

theorem Roster.Numbered.enter {r : Roster} (h : r.Numbered) (connfd : Int) :
    (r.enter connfd).Numbered := by
  refine ⟨?_, ?_⟩
  · intro m hm
    change m.addr < r.allocated + 1
    rcases List.mem_append.mp hm with hold | hnew
    · exact Nat.lt_succ_of_lt (h.bound m hold)
    · rw [List.mem_singleton.mp hnew]
      exact Nat.lt_succ_self _
  · simp only [Roster.enter, List.map_append, List.map_cons, List.map_nil]
    refine List.nodup_append.mpr ⟨h.nodup, List.nodup_singleton _, ?_⟩
    intro a ha b hb hab
    obtain ⟨m, hm, rfl⟩ := List.mem_map.mp ha
    have hlt := h.bound m hm
    rw [hab, List.mem_singleton.mp hb] at hlt
    exact Nat.lt_irrefl _ hlt

theorem Roster.Numbered.leave {r : Roster} (h : r.Numbered) (connfd : Int) :
    (r.leave connfd).Numbered :=
  ⟨fun m hm => h.bound m (List.mem_of_mem_eraseP hm),
    h.nodup.sublist (List.eraseP_sublist.map Member.addr)⟩

theorem connected_roster (g : GServerPara) :
    (roster g).members.map Member.addr = connected g := by
  simp [roster, members, connected, member]

theorem numbered_rosterAfter {s : State} (h : (roster s.server).Numbered) (l : Label) :
    (rosterAfter s l).Numbered := by
  unfold rosterAfter
  split
  · exact h.enter _
  · exact h.leave _
  · split
    · exact h
    · split
      · exact (h.enter _).leave _
      · exact h.enter _
  · exact h

theorem Roster.Numbered.nodup_connected {g : GServerPara} (h : (roster g).Numbered) :
    (connected g).Nodup := by
  rw [← connected_roster]
  exact h.nodup

theorem Roster.Numbered.lt_allocated {g : GServerPara} (h : (roster g).Numbered)
    {n : UserSessionNode} (hn : n ∈ g.userSessionNodeHead) : n.addr < g.allocated :=
  h.bound (member n) (List.mem_map_of_mem hn)

theorem mem_enter {m : Member} {r : Roster} {connfd : Int} (h : m ∈ (r.enter connfd).members) :
    m ∈ r.members ∨ m.addr = r.allocated := by
  rcases List.mem_append.mp h with hold | hnew
  · exact .inl hold
  · rw [List.mem_singleton.mp hnew]
    exact .inr rfl

theorem mem_rosterAfter {s : State} {l : Label} {m : Member} (h : m ∈ (rosterAfter s l).members) :
    m ∈ members s.server ∨ m.addr = s.server.allocated := by
  unfold rosterAfter at h
  split at h
  · exact mem_enter h
  · exact .inl (List.mem_of_mem_eraseP h)
  · split at h
    · exact .inl h
    · split at h
      · exact mem_enter (List.mem_of_mem_eraseP h)
      · exact mem_enter h
  · exact .inl h

theorem allocated_rosterAfter (s : State) (l : Label) :
    s.server.allocated ≤ (rosterAfter s l).allocated := by
  unfold rosterAfter
  split
  · exact Nat.le_succ _
  · exact Nat.le_refl _
  · split
    · exact Nat.le_refl _
    · split <;> exact Nat.le_succ _
  · exact Nat.le_refl _

theorem numbered_started {s : State} (h : Started s) : (roster s.server).Numbered := by
  rw [h.server]
  exact ⟨by simp [roster, members, createServerThread],
    by simp [roster, members, createServerThread]⟩

end GwWeb.SessionRoster
