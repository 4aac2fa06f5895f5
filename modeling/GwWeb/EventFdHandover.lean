import GwWeb.SessionThreads

/-!
The hand-over of an openwrt session to the epoll thread: the event loop writes the
pointer to an eventfd, the epoll thread reads it and registers the descriptor.
-/

namespace GwWeb.EventFdHandover

open FirstMatch
open TransitionRuns
open GwWeb.WebCommon
open GwWeb.Server hiding addNewUserNodeToList
open GwWeb.SessionThreads

/-- Each pointer written was obtained by one read, unchanged, and its session was
registered then. -/
structure HandedOver (s : State) : Prop where
  obtained : s.log.obtained = s.log.written.map Node.ptr
  enrolled : s.log.enrolled = s.log.written.map Node.addr

/-- All is handed over, or will be as soon as the epoll thread takes the event of the
eventfd. -/
def Delivers (s : State) : Prop :=
  if s.eventFd.count = 0 then HandedOver s
  else ∃ s', eventFdReady s = .ok s' ∧ s'.eventFd.count = 0 ∧ HandedOver s'

/-- The session whose pointer is in the eventfd. -/
def unread (s : State) : Option Node :=
  if s.eventFd.count = 0 then none else s.log.written.getLast?

/-- `MSG_OPENWRT_CONNECTED` writes a pointer to an odd eventfd that is empty, for a
descriptor that is open and not registered; if the write fails, the session whose
pointer is unread has another descriptor. -/
def WritesAlone (ptr : Nat) (s : State) : Prop :=
  s.server.openwrtLink ≠ 0 →
    if 0xfffffffffffffffe < s.eventFd.count + ptr then
      ∀ w ∈ unread s, w.connfd ≠ s.server.openwrtConnfd
    else
      s.eventFd.number &&& EPOLLIN ≠ 0 ∧ s.eventFd.count = 0 ∧
        s.server.openwrtConnfd ∈ numbers s ∧
        s.server.openwrtConnfd ∉ s.interest.map Interest.connfd

/-- `del_user` does not close the descriptor of the session whose pointer is unread. -/
def SparesUnread (connfd : Int) (s : State) : Prop :=
  ∀ u ∈ (delUserNodeInList connfd s.server).2, ∀ w ∈ unread s, u.connfd ≠ w.connfd

/-- What is handled neither writes over a pointer that waits nor closes its descriptor. -/
def HandledAlone (ptr : Nat) (s : State) : Option Msg → Prop
  | some .openwrtConnected => WritesAlone ptr s
  | some (.delDisconnectUser addr) => ∀ n ∈ s.nodes, n.addr = addr → SparesUnread n.connfd s
  | _ => True

/-- The condition of a step, which reads the message at the head of the queue. -/
def KeepsHandover (s : State) : Label → Prop
  | .handle ptr => HandledAlone ptr s s.queue.head?
  | _ => True

/-- How nodes lie in memory, and agree with the list. -/
structure Laid (s : State) : Prop where
  addrs : (s.nodes.map Node.addr).Nodup
  bound : ∀ n ∈ s.nodes, n.addr < s.server.allocated
  ptrs : (s.nodes.map Node.ptr).Nodup
  ptr_ne : ∀ n ∈ s.nodes, n.ptr ≠ 0
  listed : ∀ u ∈ s.server.userSessionNodeHead, u.addr < s.server.allocated
  agree : ∀ n ∈ s.nodes, ∀ u ∈ s.server.userSessionNodeHead, u.addr = n.addr →
    u.connfd = n.connfd

/-- The last session written waits to be read. -/
structure Waiting (w : Node) (s : State) : Prop where
  count : s.eventFd.count = w.ptr
  live : w ∈ s.nodes
  opened : w.connfd ∈ numbers s
  unregistered : w.connfd ∉ s.interest.map Interest.connfd
  odd : s.eventFd.number &&& EPOLLIN ≠ 0
  last : ∃ read, s.log.written = read ++ [w] ∧ s.log.obtained = read.map Node.ptr ∧
    s.log.enrolled = read.map Node.addr

/-- The eventfd is empty, or holds one pointer that can be read. -/
inductive Ready (s : State) : Prop where
  | empty (count : s.eventFd.count = 0) (handed : HandedOver s)
  | waiting (w : Node) (h : Waiting w s)

variable {s s' : State} {l : Label} {w : Node}

theorem Laid.find_ptr (h : Laid s) (hw : w ∈ s.nodes) :
    (s.nodes.find? fun n => n.ptr = w.ptr) = some w := by
  cases hfind : s.nodes.find? fun n => n.ptr = w.ptr with
  | none =>
      have hnot := List.find?_eq_none.mp hfind w hw
      simp at hnot
  | some n =>
      have hptr : n.ptr = w.ptr := by simpa using List.find?_some hfind
      rw [List.inj_on_of_nodup_map h.ptrs (List.mem_of_find?_eq_some hfind) hw hptr]

theorem Waiting.read (h : Laid s) (hw : Waiting w s) :
    ∃ s', eventFdReady s = .ok s' ∧ s'.eventFd.count = 0 ∧ HandedOver s' := by
  have hne : s.eventFd.count ≠ 0 := hw.count ▸ h.ptr_ne w hw.live
  obtain ⟨read, hwritten, hobtained, henrolled⟩ := hw.last
  have hfind := h.find_ptr hw.live
  rw [← hw.count] at hfind
  refine ⟨{ s with
      eventFd := { s.eventFd with count := 0 }
      interest := s.interest ++ [⟨w.connfd, w.addr⟩]
      log := { s.log with
        obtained := s.log.obtained ++ [s.eventFd.count]
        enrolled := s.log.enrolled ++ [w.addr] } }, ?_, rfl, ?_, ?_⟩
  · have hopened : w.connfd ∈ s.opened.map Descriptor.number := hw.opened
    simp only [eventFdReady, hw.odd, hne, if_false, hfind, epollCtlAdd, numbers, hopened,
      not_true_eq_false, or_false, hw.unregistered]
  · simp [hwritten, hobtained, hw.count]
  · simp [hwritten, henrolled]

theorem delivers_of_ready (h : Laid s) (hready : Ready s) : Delivers s := by
  unfold Delivers
  cases hready with
  | empty hcount hhanded =>
      rw [if_pos hcount]
      exact hhanded
  | waiting w hw =>
      have hne : s.eventFd.count ≠ 0 := hw.count ▸ h.ptr_ne w hw.live
      rw [if_neg hne]
      exact hw.read h

/-- What the read of a pointer does, if it does not fail. -/
structure ReadNode (n : Node) (s s' : State) : Prop where
  odd : s.eventFd.number &&& EPOLLIN ≠ 0
  live : n ∈ s.nodes
  ptr : n.ptr = s.eventFd.count
  opened : n.connfd ∈ numbers s
  written : s'.log.written = s.log.written
  obtained : s'.log.obtained = s.log.obtained ++ [s.eventFd.count]
  enrolled : n.connfd ∉ s.interest.map Interest.connfd ∧
      s'.log.enrolled = s.log.enrolled ++ [n.addr] ∨
    n.connfd ∈ s.interest.map Interest.connfd ∧ s'.log.enrolled = s.log.enrolled

theorem eventFdReady_cases (hok : eventFdReady s = .ok s') :
    s' = s ∨ s.eventFd.count ≠ 0 ∧ s'.eventFd.count = 0 ∧ ∃ n, ReadNode n s s' := by
  unfold eventFdReady at hok
  split at hok
  · exact .inl (Except.ok.inj hok).symm
  · rename_i hodd
    split at hok
    · exact .inl (Except.ok.inj hok).symm
    · rename_i hcount
      dsimp only at hok
      split at hok
      · cases hok
      · rename_i n hfind
        have hptr : n.ptr = s.eventFd.count := by simpa using List.find?_some hfind
        have hlive : n ∈ s.nodes := List.mem_of_find?_eq_some hfind
        split at hok
        · cases hok
        · rename_i hopened
          have hopened : n.connfd ∈ numbers s := not_not.mp hopened
          refine .inr ⟨hcount, ?_⟩
          split at hok
          · rename_i hnone
            obtain rfl := Except.ok.inj hok
            have hregistered : n.connfd ∈ s.interest.map Interest.connfd :=
              (epollCtlAdd_eq_none_iff.mp hnone).resolve_right (not_not.mpr hopened)
            exact ⟨rfl, n, hodd, hlive, hptr, hopened, rfl, rfl, .inr ⟨hregistered, rfl⟩⟩
          · rename_i s₂ hsome
            obtain ⟨hfree, -, rfl⟩ := epollCtlAdd_eq_some hsome
            obtain rfl := Except.ok.inj hok
            exact ⟨rfl, n, hodd, hlive, hptr, hopened, rfl, rfl, .inl ⟨hfree, rfl⟩⟩

theorem Delivers.read (h : Delivers s) (hcount : s.eventFd.count ≠ 0) :
    ∃ n, n ∈ s.nodes ∧ n.ptr = s.eventFd.count ∧ s.eventFd.number &&& EPOLLIN ≠ 0 ∧
      n.connfd ∈ numbers s ∧
      s.log.obtained ++ [s.eventFd.count] = s.log.written.map Node.ptr ∧
      (s.log.enrolled.length + 1 = s.log.written.length →
        n.connfd ∉ s.interest.map Interest.connfd) := by
  unfold Delivers at h
  rw [if_neg hcount] at h
  obtain ⟨s', hok, hzero, hhanded⟩ := h
  rcases eventFdReady_cases hok with rfl | ⟨-, -, n, hn⟩
  · exact absurd hzero hcount
  · have hobtained := hhanded.obtained
    rw [hn.obtained, hn.written] at hobtained
    refine ⟨n, hn.live, hn.ptr, hn.odd, hn.opened, hobtained, fun hlength => ?_⟩
    rcases hn.enrolled with ⟨hnot, -⟩ | ⟨-, hsame⟩
    · exact hnot
    · have hall := congrArg List.length hhanded.enrolled
      rw [hsame, hn.written, List.length_map] at hall
      omega

section Memory

variable {ptr : Nat} {connfd : Int} {n : Node}

theorem Laid.same (h : Laid s) (hsame : SameSessions s s') : Laid s' := by
  obtain ⟨hallocated, hhead, -, hnodes, -, -⟩ := hsame
  constructor
  · exact hnodes ▸ h.addrs
  · rw [hnodes, hallocated]
    exact h.bound
  · exact hnodes ▸ h.ptrs
  · exact hnodes ▸ h.ptr_ne
  · rw [hhead, hallocated]
    exact h.listed
  · rw [hnodes, hhead]
    exact h.agree

theorem Laid.newUserNode (h : Laid s) (hptr : FreshPtr s ptr) :
    Laid (newUserNode ptr connfd s).2 where
  addrs := by
    simp only [SessionThreads.newUserNode, List.map_append, List.map_cons, List.map_nil]
    refine List.nodup_append.mpr ⟨h.addrs, List.nodup_singleton _, ?_⟩
    intro a ha b hb
    obtain ⟨m, hm, rfl⟩ := List.mem_map.mp ha
    rw [List.mem_singleton.mp hb]
    exact Nat.ne_of_lt (h.bound m hm)
  bound := by
    intro m hm
    rcases List.mem_append.mp hm with hold | hnew
    · exact Nat.lt_succ_of_lt (h.bound m hold)
    · rw [List.mem_singleton.mp hnew]
      exact Nat.lt_succ_self _
  ptrs := by
    simp only [SessionThreads.newUserNode, List.map_append, List.map_cons, List.map_nil]
    refine List.nodup_append.mpr ⟨h.ptrs, List.nodup_singleton _, ?_⟩
    rintro a ha b hb rfl
    exact hptr.2 (List.mem_singleton.mp hb ▸ ha)
  ptr_ne := by
    intro m hm
    rcases List.mem_append.mp hm with hold | hnew
    · exact h.ptr_ne m hold
    · rw [List.mem_singleton.mp hnew]
      exact hptr.1
  listed := fun u hu => Nat.lt_succ_of_lt (h.listed u hu)
  agree := by
    intro m hm u hu haddr
    rcases List.mem_append.mp hm with hold | hnew
    · exact h.agree m hold u hu haddr
    · rw [List.mem_singleton.mp hnew] at haddr
      exact absurd haddr (Nat.ne_of_lt (h.listed u hu))

theorem Laid.enter (h : Laid s) (hn : n ∈ s.nodes) :
    Laid { s with server := SessionThreads.addNewUserNodeToList n s.server } where
  addrs := h.addrs
  bound := h.bound
  ptrs := h.ptrs
  ptr_ne := h.ptr_ne
  listed := by
    intro u hu
    rcases List.mem_append.mp hu with hold | hnew
    · exact h.listed u hold
    · rw [List.mem_singleton.mp hnew]
      exact h.bound n hn
  agree := by
    intro m hm u hu haddr
    rcases List.mem_append.mp hu with hold | hnew
    · exact h.agree m hm u hold haddr
    · rw [List.mem_singleton.mp hnew] at haddr ⊢
      rw [List.inj_on_of_nodup_map h.addrs hn hm haddr]

theorem Laid.enterOpenwrt (h : Laid s) (hptr : FreshPtr s ptr) : Laid (enterOpenwrt ptr s) :=
  (h.newUserNode hptr).enter (n := openwrtNode ptr s)
    (List.mem_append_right _ (List.mem_singleton_self _))

theorem Laid.released {node : Option UserSessionNode} (h : Laid s)
    (hreleased : Released node s s') :
    Laid s' where
  addrs := h.addrs.sublist (hreleased.sublist.map _)
  bound := fun m hm => hreleased.allocated ▸ h.bound m (hreleased.sublist.subset hm)
  ptrs := h.ptrs.sublist (hreleased.sublist.map _)
  ptr_ne := fun m hm => h.ptr_ne m (hreleased.sublist.subset hm)
  listed := fun u hu => hreleased.allocated ▸ h.listed u (hreleased.head u hu)
  agree := fun m hm u hu => h.agree m (hreleased.sublist.subset hm) u (hreleased.head u hu)

end Memory

section Steps

theorem Ready.mono (h : Ready s) (heventFd : s'.eventFd = s.eventFd)
    (hlog : s'.log.written = s.log.written ∧ s'.log.obtained = s.log.obtained ∧
      s'.log.enrolled = s.log.enrolled)
    (hnodes : ∀ n ∈ s.nodes, n ∈ s'.nodes) (hnumbers : ∀ c ∈ numbers s, c ∈ numbers s')
    (hinterest : ∀ i ∈ s'.interest, i ∈ s.interest ∨ i.connfd ∉ numbers s) : Ready s' := by
  obtain ⟨hwritten, hobtained, henrolled⟩ := hlog
  cases h with
  | empty hcount hhanded =>
      refine .empty (heventFd ▸ hcount) ⟨?_, ?_⟩
      · rw [hobtained, hwritten]
        exact hhanded.obtained
      · rw [henrolled, hwritten]
        exact hhanded.enrolled
  | waiting w hw =>
      refine .waiting w ⟨heventFd ▸ hw.count, hnodes w hw.live, hnumbers _ hw.opened, ?_,
        heventFd ▸ hw.odd, ?_⟩
      · intro hin
        obtain ⟨i, hi, hconnfd⟩ := List.mem_map.mp hin
        rcases hinterest i hi with hold | hnew
        · exact hw.unregistered (List.mem_map.mpr ⟨i, hold, hconnfd⟩)
        · exact hnew (hconnfd ▸ hw.opened)
      · rw [hwritten, hobtained, henrolled]
        exact hw.last

theorem unread_of_waiting (h : Laid s) (hw : Waiting w s) : unread s = some w := by
  obtain ⟨read, hwritten, -, -⟩ := hw.last
  have hne : s.eventFd.count ≠ 0 := hw.count ▸ h.ptr_ne w hw.live
  simp [unread, hne, hwritten]

/-- A session that goes leaves the pointer in the eventfd readable exactly if it has
another descriptor. -/
theorem released_iff {node : Option UserSessionNode} (h : Laid s) (hready : Ready s)
    (hnode : ∀ u ∈ node, u ∈ s.server.userSessionNodeHead)
    (hreleased : Released node s s') :
    ((∀ u ∈ node, ∀ w ∈ unread s, u.connfd ≠ w.connfd) → Ready s') ∧
      (Delivers s' → ∀ u ∈ node, ∀ w ∈ unread s, u.connfd ≠ w.connfd) := by
  cases hready with
  | empty hcount hhanded =>
      have hnone : unread s = none := if_pos hcount
      refine ⟨fun _ => .empty (hreleased.eventFd ▸ hcount) ?_, fun _ u _ w hw => ?_⟩
      · exact ⟨hreleased.log ▸ hhanded.obtained, hreleased.log ▸ hhanded.enrolled⟩
      · rw [hnone] at hw
        cases hw
  | waiting w hw =>
      have hsome := unread_of_waiting h hw
      have hne : s.eventFd.count ≠ 0 := hw.count ▸ h.ptr_ne w hw.live
      refine ⟨fun hspared => ?_, fun hdelivers u hu w' hw' => ?_⟩
      · have hother : ∀ u ∈ node, w.connfd ≠ u.connfd :=
          fun u hu => (hspared u hu w hsome).symm
        refine .waiting w ⟨hreleased.eventFd ▸ hw.count, hreleased.nodes w hw.live ?_,
          (hreleased.numbers _).mpr ⟨hw.opened, hother⟩, ?_, hreleased.eventFd ▸ hw.odd,
          hreleased.log ▸ hw.last⟩
        · intro u hu haddr
          exact hother u hu (h.agree w hw.live u (hnode u hu) haddr.symm).symm
        · intro hin
          obtain ⟨i, hi, hconnfd⟩ := List.mem_map.mp hin
          exact hw.unregistered (List.mem_map.mpr ⟨i, hreleased.interest i hi, hconnfd⟩)
      · rw [hsome] at hw'
        obtain rfl := Option.some.inj hw'
        obtain ⟨n, hn, hptr, -, hopened, -⟩ := hdelivers.read (hreleased.eventFd ▸ hne)
        rw [hreleased.eventFd, hw.count] at hptr
        obtain rfl : n = w :=
          List.inj_on_of_nodup_map h.ptrs (hreleased.sublist.subset hn) hw.live hptr
        exact (((hreleased.numbers _).mp hopened).2 u hu).symm

/-- What a condition decides about a step: the memory stays laid out, and a pointer
that waits stays readable exactly under the condition. -/
structure Decides (guard : Prop) (s' : State) : Prop where
  laid : Laid s'
  ready : guard → Ready s'
  delivers : Delivers s' → guard

theorem decides_of_ready {guard : Prop} (hguard : guard) (hlaid : Laid s') (hready : Ready s') :
    Decides guard s' := ⟨hlaid, fun _ => hready, fun _ => hguard⟩

theorem decides_same {guard : Prop} (hguard : guard) (h : Laid s) (hready : Ready s)
    (hsame : SameSessions s s') (heventFd : s'.eventFd = s.eventFd)
    (hlog : s'.log.written = s.log.written ∧ s'.log.obtained = s.log.obtained ∧
      s'.log.enrolled = s.log.enrolled)
    (hinterest : ∀ i ∈ s'.interest, i ∈ s.interest) : Decides guard s' := by
  refine decides_of_ready hguard (h.same hsame) (hready.mono heventFd hlog ?_ hsame.numbers ?_)
  · intro n hn
    exact hsame.nodes ▸ hn
  · exact fun i hi => .inl (hinterest i hi)

theorem decides_accept {ptr : Nat} {connfd : Int} (h : Laid s) (hready : Ready s)
    (hptr : FreshPtr s ptr) (hnew : connfd ∉ numbers s) :
    Decides True (acceptConnection connfd ptr s) := by
  have hopen := sameSessions_openFile connfd s
  have hlaid : Laid (newUserNode ptr connfd (openFile connfd s)).2 :=
    (h.same hopen).newUserNode hptr
  have hmono : ∀ s', s'.eventFd = s.eventFd → s'.log = s.log →
      s'.nodes = (newUserNode ptr connfd (openFile connfd s)).2.nodes →
      numbers s' = numbers (openFile connfd s) →
      (∀ i ∈ s'.interest, i ∈ s.interest ∨ i.connfd ∉ numbers s) → Ready s' := by
    intro s' heventFd hlog hnodes hnumbers hinterest
    refine hready.mono heventFd (hlog ▸ ⟨rfl, rfl, rfl⟩) (fun n hn => ?_) (fun c hc => ?_) hinterest
    · rw [hnodes]
      exact List.mem_append_left _ hn
    · rw [hnumbers]
      exact hopen.numbers c hc
  unfold acceptConnection
  dsimp only
  split
  · exact decides_of_ready trivial hlaid (hmono _ rfl rfl rfl rfl fun i hi => .inl hi)
  · rename_i s₃ hsome
    obtain ⟨-, -, rfl⟩ := epollCtlAdd_eq_some hsome
    refine decides_of_ready trivial (hlaid.same ?_) (hmono _ rfl rfl rfl rfl fun i hi => ?_)
    · refine ⟨rfl, rfl, rfl, rfl, fun _ hc => hc, fun i hi => ?_⟩
      rcases List.mem_append.mp hi with hold | hlast
      · exact .inl hold
      · rw [List.mem_singleton.mp hlast]
        exact .inr (epollCtlAdd_eq_some hsome).2.1
    · rcases List.mem_append.mp hi with hold | hlast
      · exact .inl hold
      · rw [List.mem_singleton.mp hlast]
        exact .inr hnew

theorem decides_eventFd (h : Laid s) (hready : Ready s) (hok : eventFdReady s = .ok s') :
    Decides True s' := by
  have hlaid := h.same (eventFdReady_same hok).1
  cases hready with
  | empty hcount hhanded =>
      rcases eventFdReady_cases hok with rfl | ⟨hne, -⟩
      · exact decides_of_ready trivial h (.empty hcount hhanded)
      · exact absurd hcount hne
  | waiting w hw =>
      obtain ⟨s₂, hok₂, hcount, hhanded⟩ := hw.read h
      obtain rfl := Except.ok.inj (hok.symm.trans hok₂)
      exact decides_of_ready trivial hlaid (.empty hcount hhanded)

theorem decides_openwrtConnected {ptr : Nat} (h : Laid s) (hready : Ready s)
    (hptr : FreshPtr s ptr) (hconnected : OpenwrtConnected ptr s s') :
    Decides (WritesAlone ptr s) s' := by
  have hentered := h.enterOpenwrt hptr
  unfold WritesAlone
  cases hconnected with
  | linkIsDown hlink => exact decides_of_ready (fun hup => absurd hlink hup) h hready
  | failed hlink hwrite =>
      simp only [ne_eq, hlink, not_false_eq_true, hwrite, if_true, forall_true_left]
      have hready' : Ready (enterOpenwrt ptr s) :=
        hready.mono rfl ⟨rfl, rfl, rfl⟩ (fun n hn => List.mem_append_left _ hn)
          (fun _ hc => hc) fun _ hi => .inl hi
      obtain ⟨u, hu, hconnfd⟩ := delUserNodeInList_enterOpenwrt ptr s
      have hreleased := delUser_released s.server.openwrtConnfd (enterOpenwrt ptr s)
      have hlisted : ∀ u ∈ (delUserNodeInList s.server.openwrtConnfd
          (enterOpenwrt ptr s).server).2, u ∈ (enterOpenwrt ptr s).server.userSessionNodeHead :=
        fun u hu => unlinkLoop_cursor_mem hu
      obtain ⟨hkept, hbroken⟩ := released_iff hentered hready' hlisted hreleased
      refine ⟨hentered.released hreleased, fun hspared => hkept ?_, fun hdelivers w hw => ?_⟩
      · intro u' hu' w hw
        rw [hu] at hu'
        obtain rfl := Option.some.inj hu'
        rw [hconnfd]
        exact Ne.symm (hspared w hw)
      · have hother := hbroken hdelivers u hu w hw
        rw [hconnfd] at hother
        exact hother.symm
  | written hlink hwrite =>
      simp only [ne_eq, hlink, not_false_eq_true, hwrite, if_false, forall_true_left]
      refine ⟨hentered.same (.of_eq rfl rfl rfl fun _ hi => hi), ?_, ?_⟩
      · rintro ⟨hodd, hcount, hopened, hfree⟩
        cases hready with
        | waiting w hw => exact absurd (hw.count ▸ hcount) (h.ptr_ne w hw.live)
        | empty _ hhanded =>
            refine .waiting (openwrtNode ptr s) ⟨?_, ?_, hopened, hfree, hodd, ?_⟩
            · simp [hcount, openwrtNode]
            · exact List.mem_append_right _ (List.mem_singleton_self _)
            · exact ⟨s.log.written, rfl, hhanded.obtained, hhanded.enrolled⟩
      · intro hdelivers
        have hpos : 0 < ptr := Nat.pos_of_ne_zero hptr.1
        obtain ⟨n, hn, hnptr, hodd, hopened, hobtained, hfree⟩ :=
          hdelivers.read (Nat.ne_of_gt (Nat.add_pos_right _ hpos))
        have hlength := congrArg List.length hobtained
        simp only [List.length_append, List.length_map, List.length_singleton] at hlength
        cases hready with
        | waiting w hw =>
            obtain ⟨read, hwritten, hread, -⟩ := hw.last
            simp [hwritten, hread] at hlength
        | empty hcount hhanded =>
            have hself : n = openwrtNode ptr s := by
              refine List.inj_on_of_nodup_map hentered.ptrs hn
                (List.mem_append_right _ (List.mem_singleton_self _)) ?_
              rw [hnptr, hcount, Nat.zero_add]
              rfl
            have hregistered : (s.log.enrolled.length + 1 =
                (s.log.written ++ [openwrtNode ptr s]).length) := by
              simp [hhanded.enrolled]
            rw [hself] at hopened hfree
            exact ⟨hodd, hcount, hopened, hfree hregistered⟩

theorem decides_step (h : Laid s) (hready : Ready s) (hstep : Step s l s') :
    Decides (KeepsHandover s l) s' := by
  obtain ⟨hpossible, hok⟩ := hstep
  cases l with
  | accept connfd ptr =>
      obtain rfl := Except.ok.inj hok
      exact decides_accept h hready hpossible.2.2.2 hpossible.2.2.1
  | eventFd => exact decides_eventFd h hready hok
  | notify addr =>
      obtain ⟨n, -, hok⟩ := bind_eq_ok.mp hok
      split at hok
      · obtain rfl := Except.ok.inj hok
        exact decides_of_ready trivial h hready
      · obtain rfl := Except.ok.inj hok
        exact decides_same trivial h hready (.of_eq rfl rfl rfl fun _ hi => hi)
          rfl ⟨rfl, rfl, rfl⟩ fun _ hi => hi
  | recv r =>
      simp only [execute, receive] at hok
      split at hok
      · obtain rfl := Except.ok.inj hok
        exact decides_of_ready trivial h hready
      · obtain ⟨n, -, hok⟩ := bind_eq_ok.mp hok
        cases r <;> obtain rfl := Except.ok.inj hok <;>
          exact decides_same trivial h hready (.of_eq rfl rfl rfl fun _ hi => hi)
            rfl ⟨rfl, rfl, rfl⟩ fun _ hi => hi
  | linkDetect netStat connfd =>
      obtain rfl := Except.ok.inj hok
      have hopen := (sameSessions_openFile connfd s).numbers
      unfold linkDetectThread
      split
      · split
        · exact decides_same trivial h hready ⟨rfl, rfl, rfl, rfl, hopen, fun _ hi => .inl hi⟩
            rfl ⟨rfl, rfl, rfl⟩ fun _ hi => hi
        · exact decides_of_ready trivial h hready
      · split
        · exact decides_same trivial h hready ⟨rfl, rfl, rfl, rfl, fun _ hc => hc,
            fun _ hi => .inl hi⟩ rfl ⟨rfl, rfl, rfl⟩ fun _ hi => hi
        · exact decides_of_ready trivial h hready
  | handle ptr =>
      simp only [execute, eventLoop] at hok
      simp only [KeepsHandover]
      cases hqueue : s.queue with
      | nil =>
          rw [hqueue] at hok
          obtain rfl := Except.ok.inj hok
          exact decides_of_ready trivial h hready
      | cons m queue =>
          rw [hqueue] at hok
          have hbase : Decides True { s with queue } :=
            decides_same trivial h hready (.of_eq rfl rfl rfl fun _ hi => hi)
              rfl ⟨rfl, rfl, rfl⟩ fun _ hi => hi
          have hbaseReady := hbase.ready trivial
          cases m with
          | acceptNewUser addr =>
              obtain ⟨n, hn, hok⟩ := bind_eq_ok.mp hok
              obtain rfl := Except.ok.inj hok
              refine decides_of_ready trivial (hbase.laid.enter (mem_of_pointedTo hn).1) ?_
              exact hbaseReady.mono rfl ⟨rfl, rfl, rfl⟩ (fun _ hm => hm) (fun _ hc => hc)
                fun _ hi => .inl hi
          | delDisconnectUser addr =>
              obtain ⟨n, hn, hok⟩ := bind_eq_ok.mp hok
              obtain rfl := Except.ok.inj hok
              obtain ⟨hlive, haddr⟩ := mem_of_pointedTo hn
              have hunregistered : Decides True (unregisterEvent n.connfd { s with queue }) :=
                decides_same trivial h hready
                  (.of_eq rfl rfl rfl fun _ hi => List.mem_of_mem_filter hi) rfl ⟨rfl, rfl, rfl⟩
                  fun _ hi => List.mem_of_mem_filter hi
              have hreleased :=
                delUser_released n.connfd (unregisterEvent n.connfd { s with queue })
              obtain ⟨hkept, hbroken⟩ := released_iff hunregistered.laid
                (hunregistered.ready trivial) (fun u hu => unlinkLoop_cursor_mem hu) hreleased
              refine ⟨hunregistered.laid.released hreleased, fun hguard => hkept ?_, ?_⟩
              · exact hguard n hlive haddr
              · intro hdelivers m hm hmaddr
                obtain rfl : m = n :=
                  List.inj_on_of_nodup_map h.addrs hm hlive (hmaddr.trans haddr.symm)
                exact hbroken hdelivers
          | openwrtConnected =>
              obtain rfl := Except.ok.inj hok
              have hdecides := decides_openwrtConnected hbase.laid hbaseReady hpossible
                (handleOpenwrtConnected_connected ptr { s with queue })
              exact hdecides
          | openwrtDisconnect =>
              simp only [handleOpenwrtDisconnect] at hok
              split at hok
              · cases hok
              · obtain ⟨g, -, hok⟩ := bind_eq_ok.mp hok
                obtain rfl := Except.ok.inj hok
                exact decides_same trivial h hready (.of_eq rfl rfl rfl fun _ hi => hi)
                  rfl ⟨rfl, rfl, rfl⟩ fun _ hi => hi
          | request addr =>
              obtain ⟨n, -, hok⟩ := bind_eq_ok.mp hok
              obtain rfl := Except.ok.inj hok
              exact ⟨hbase.laid, fun _ => hbaseReady, fun _ => trivial⟩

theorem ready_started (hs : Started s) : Laid s ∧ Ready s := by
  refine ⟨?_, .empty hs.count ⟨?_, ?_⟩⟩
  · constructor <;> simp [hs.nodes, hs.server, createServerThread]
  · rw [hs.log]
    rfl
  · rw [hs.log]
    rfl

end Steps

/-- Over a run every pointer written is handed over exactly if every step meets the
condition. -/
theorem delivers_iff {s₀ s : State} {trs : List (Transition State Label)} (hs : Started s₀)
    (h : Run Step s₀ trs s) :
    Delivers s₀ ∧
      ((∀ tr ∈ trs, Delivers tr.after) ↔ ∀ tr ∈ trs, KeepsHandover tr.before tr.label) := by
  have hstart := ready_started hs
  have hkeep : ∀ a l b, Laid a ∧ Ready a → KeepsHandover a l → Step a l b →
      (Laid b ∧ Ready b) ∧ Delivers b := by
    rintro a l b ⟨hlaid, hready⟩ hguard hstep
    have hdecides := decides_step hlaid hready hstep
    exact ⟨⟨hdecides.laid, hdecides.ready hguard⟩,
      delivers_of_ready hdecides.laid (hdecides.ready hguard)⟩
  have hbreak : ∀ a l b, Laid a ∧ Ready a → ¬ KeepsHandover a l → Step a l b → ¬ Delivers b := by
    rintro a l b ⟨hlaid, hready⟩ hguard hstep hdelivers
    exact hguard ((decides_step hlaid hready hstep).delivers hdelivers)
  exact ⟨delivers_of_ready hstart.1 hstart.2, h.forall_good_iff hkeep hbreak hstart⟩

instance (ptr : Nat) (s : State) : Decidable (WritesAlone ptr s) :=
  inferInstanceAs (Decidable (_ → ite _ _ _))

instance (connfd : Int) (s : State) : Decidable (SparesUnread connfd s) :=
  inferInstanceAs (Decidable (∀ u ∈ (delUserNodeInList connfd s.server).2, ∀ w ∈ unread s,
    u.connfd ≠ w.connfd))

instance (ptr : Nat) (s : State) (m : Option Msg) : Decidable (HandledAlone ptr s m) :=
  match m with
  | some .openwrtConnected => inferInstanceAs (Decidable (WritesAlone ptr s))
  | some (.delDisconnectUser addr) =>
      inferInstanceAs (Decidable (∀ n ∈ s.nodes, n.addr = addr → SparesUnread n.connfd s))
  | some .openwrtDisconnect => isTrue trivial
  | some (.acceptNewUser _) => isTrue trivial
  | some (.request _) => isTrue trivial
  | none => isTrue trivial

instance (s : State) (l : Label) : Decidable (KeepsHandover s l) :=
  match l with
  | .handle ptr => inferInstanceAs (Decidable (HandledAlone ptr s s.queue.head?))
  | .accept _ _ => isTrue trivial
  | .eventFd => isTrue trivial
  | .notify _ => isTrue trivial
  | .recv _ => isTrue trivial
  | .linkDetect _ _ => isTrue trivial

/-- Two openwrt sessions after each other, each read before the next is written. -/
theorem delivers_two_sessions :
    ∃ trs s, Run Step (startState 5) trs s ∧ s.log.obtained = [8192, 12288] ∧
      s.log.enrolled = [0, 1] ∧ ∀ tr ∈ trs, Delivers tr.after := by
  obtain ⟨trs, s, hs, hobtained, henrolled⟩ :
      ∃ trs s, replay (attempt (fun s l => KeepsHandover s l ∧ Possible s l) execute)
          (startState 5)
          [.linkDetect 1 8, .handle 8192, .eventFd, .linkDetect 0 0, .handle 12288,
            .handle 12288, .linkDetect 1 8, .handle 12288, .eventFd] = some (trs, s) ∧
        s.log.obtained = [8192, 12288] ∧ s.log.enrolled = [0, 1] := ⟨_, _, rfl, rfl, rfl⟩
  obtain ⟨hrun, hguard⟩ := run_of_guarded_attempts hs
  exact ⟨trs, s, hrun, hobtained, henrolled,
    (delivers_iff (startState_started 5) hrun).2.mpr hguard⟩

/-- With an even eventfd the pointer is never read. With an odd one, two pointers that
are written between two reads are added up to an address of no session. -/
theorem pointer_not_delivered :
    (∃ trs s, Run Step (startState 4) trs s ∧ s.log.written = [⟨0, 8192, 8⟩] ∧
      execute s .eventFd = .ok s ∧ s.log.obtained = [] ∧ ¬ Delivers s) ∧
    ∃ trs s, Run Step (startState 5) trs s ∧
      s.log.written = [⟨0, 8192, 9⟩, ⟨1, 12288, 9⟩] ∧ s.eventFd.count = 20480 ∧
      execute s .eventFd = .error .afterFree ∧ ¬ Delivers s := by
  constructor
  · obtain ⟨trs, s, hs, hwritten, hcount, hread, hnone⟩ :
        ∃ trs s, replay (attempt Possible execute) (startState 4)
            [.linkDetect 1 8, .handle 8192] = some (trs, s) ∧
          s.log.written = [⟨0, 8192, 8⟩] ∧ s.eventFd.count = 8192 ∧
          execute s .eventFd = .ok s ∧ s.log.obtained = [] := ⟨_, _, rfl, rfl, rfl, rfl, rfl⟩
    refine ⟨trs, s, run_of_attempts hs, hwritten, hread, hnone, fun hdelivers => ?_⟩
    unfold Delivers at hdelivers
    rw [if_neg (by simp [hcount])] at hdelivers
    obtain ⟨s', hok, hzero, -⟩ := hdelivers
    obtain rfl := Except.ok.inj (hread.symm.trans hok)
    simp [hcount] at hzero
  · obtain ⟨trs, s, hs, hwritten, hcount, hread⟩ :
        ∃ trs s, replay (attempt Possible execute) (startState 5)
            [.linkDetect 1 8, .linkDetect 0 0, .linkDetect 1 9, .handle 8192, .handle 12288,
              .handle 12288] = some (trs, s) ∧
          s.log.written = [⟨0, 8192, 9⟩, ⟨1, 12288, 9⟩] ∧ s.eventFd.count = 20480 ∧
          execute s .eventFd = .error .afterFree := ⟨_, _, rfl, rfl, rfl, rfl⟩
    refine ⟨trs, s, run_of_attempts hs, hwritten, hcount, hread, fun hdelivers => ?_⟩
    unfold Delivers at hdelivers
    rw [if_neg (by simp [hcount])] at hdelivers
    obtain ⟨s', hok, -⟩ := hdelivers
    exact nomatch hread.symm.trans hok

end GwWeb.EventFdHandover
