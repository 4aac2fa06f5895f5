import GwWeb.Server
import GwWeb.TransitionRuns
import GwWeb.WebCommon

/-!
The threads around the session list: the epoll thread of `server.c`, the link
detection thread of `event_process.c`, and the event loop, which takes what both
post from one queue. What happens to a session apart from its list and its
descriptor is left out. A descriptor number may be used again, so each open file
has a serial number as well.
-/

namespace GwWeb.SessionThreads

open FirstMatch
open TransitionRuns
open GwWeb.WebCommon
open GwWeb.Server

/-- A `user_session_node` with its `g_receive`, from `new_user_node` until both are
freed; `ptr` is the address that `malloc` returned. -/
structure Node where
  addr : Nat
  ptr : Nat
  connfd : Int
  deriving DecidableEq

/-- The messages with a session, and those about the link. -/
inductive Msg where
  | acceptNewUser (addr : Nat)
  | delDisconnectUser (addr : Nat)
  | openwrtConnected
  | openwrtDisconnect
  | request (addr : Nat)
  deriving DecidableEq

/-- A descriptor, with the open file it stands for. -/
structure Descriptor where
  number : Int
  file : Nat
  deriving DecidableEq

/-- A descriptor registered with epoll, and the session in its `data.ptr`. -/
structure Interest where
  connfd : Int
  addr : Nat
  deriving DecidableEq

/-- `event_fd`, and its counter. -/
structure EventFd where
  number : Nat
  count : Nat

/-- What the threads have done so far: the nodes written to the eventfd, the values
read from it and the sessions registered then; the files that `connect_helloworld`
returned, and those that were seen to end. -/
structure Log where
  written : List Node
  obtained : List Nat
  enrolled : List Nat
  connects : List Nat
  peerClosed : List Nat

/-- `nodes` are the nodes that are not freed. `serving` is the session that
`process_recv_event` is at, while its `working` is `WORKING`. -/
structure State where
  server : GServerPara
  nodes : List Node
  queue : List Msg
  opened : List Descriptor
  files : Nat
  interest : List Interest
  serving : Option Nat
  eventFd : EventFd
  log : Log

def EPOLLIN : Nat := 1

/-- The descriptors that are open. -/
def numbers (s : State) : List Int := s.opened.map Descriptor.number

/-- A new open file. -/
def openFile (connfd : Int) (s : State) : State :=
  { s with opened := s.opened ++ [⟨connfd, s.files⟩], files := s.files + 1 }

/-- `close`, which takes a descriptor out of epoll as well. -/
def close (connfd : Int) (s : State) : State :=
  { s with
    opened := s.opened.filter fun d => d.number ≠ connfd
    interest := s.interest.filter fun i => i.connfd ≠ connfd }

/-- `EPOLL_CTL_ADD` fails for a descriptor that is registered, or not open. -/
def epollCtlAdd (n : Node) (s : State) : Option State :=
  if n.connfd ∈ s.interest.map Interest.connfd ∨ n.connfd ∉ numbers s then none
  else some { s with interest := s.interest ++ [⟨n.connfd, n.addr⟩] }

def unregisterEvent (fd : Int) (s : State) : State :=
  { s with interest := s.interest.filter fun i => i.connfd ≠ fd }

/-- A write to an eventfd adds to its counter, up to `0xfffffffffffffffe`. -/
def eventfdWrite (value : Nat) (e : EventFd) : Option EventFd :=
  if 0xfffffffffffffffe < e.count + value then none else some { e with count := e.count + value }

def postMsg (m : Msg) (s : State) : State := { s with queue := s.queue ++ [m] }

def newUserNode (ptr : Nat) (connfd : Int) (s : State) : Node × State :=
  let node : Node := ⟨s.server.allocated, ptr, connfd⟩
  (node, { s with
    server := { s.server with allocated := s.server.allocated + 1 }
    nodes := s.nodes ++ [node] })

/-- The node behind a pointer to a session or to its `g_receive`. -/
def pointedTo (addr : Nat) (s : State) : Except Fault Node :=
  match s.nodes.find? fun n => n.addr = addr with
  | none => .error .afterFree
  | some n => .ok n

/-- `add_new_user_node_to_list` for a node that is allocated already. -/
def addNewUserNodeToList (node : Node) (g : GServerPara) : GServerPara :=
  { g with
    userSessionNodeHead := g.userSessionNodeHead ++
      [{ addr := node.addr, nodeId := g.userNodeIdInit, connfd := node.connfd,
         recordAction := .initial }]
    userSessionCnt := g.userSessionCnt + 1
    userNodeIdInit := if g.userNodeIdInit + 1 = 1025 then 1 else g.userNodeIdInit + 1 }

theorem server_addNewUserNodeToList (ptr : Nat) (connfd : Int) (s : State) :
    Server.addNewUserNodeToList connfd s.server =
      addNewUserNodeToList (newUserNode ptr connfd s).1 (newUserNode ptr connfd s).2.server := rfl

/-- The branch of `runEpollServer` for `listenfd`. -/
def acceptConnection (connfd : Int) (ptr : Nat) (s : State) : State :=
  let (node, s) := newUserNode ptr connfd (openFile connfd s)
  match epollCtlAdd node s with
  | none => s
  | some s => postMsg (.acceptNewUser node.addr) s

/-- The branch for `event_fd`. The guard is on the number of the descriptor.
`setnonblocking` exits on a descriptor that is not open. -/
def eventFdReady (s : State) : Except Fault State :=
  if s.eventFd.number &&& EPOLLIN = 0 then .ok s
  else if s.eventFd.count = 0 then .ok s
  else
    let readFd := s.eventFd.count
    let s := { s with
      eventFd := { s.eventFd with count := 0 }
      log := { s.log with obtained := s.log.obtained ++ [readFd] } }
    match s.nodes.find? fun n => n.ptr = readFd with
    | none => .error .afterFree
    | some newUser =>
        if newUser.connfd ∉ numbers s then .error .assertion
        else
          match epollCtlAdd newUser s with
          | none => .ok s
          | some s =>
              .ok { s with log := { s.log with enrolled := s.log.enrolled ++ [newUser.addr] } }

/-- The branch for a session, up to the loop of `process_recv_event`. -/
def processRecvEvent (addr : Nat) (s : State) : Except Fault State := do
  let n ← pointedTo addr s
  if n.connfd < 0 then return s else return { s with serving := some addr }

/-- What `recv` brings: a message, no more data for now, or the end of the stream
(or an error). -/
inductive Received where
  | message
  | again
  | closed

/-- One round of the loop; `receive` posts the messages of a session one by one. -/
def receive (r : Received) (s : State) : Except Fault State :=
  match s.serving with
  | none => .ok s
  | some addr => do
      let n ← pointedTo addr s
      match r with
      | .message => return postMsg (.request addr) s
      | .again => return { s with serving := none }
      | .closed =>
          let ended := (s.opened.filter fun d => d.number = n.connfd).map Descriptor.file
          return postMsg (.delDisconnectUser addr) { s with
            serving := none
            log := { s.log with peerClosed := s.log.peerClosed ++ ended } }

/-- One round of `link_detect_thread`; `connfd` is what `connect_helloworld` returns,
if it is called. -/
def linkDetectThread (netStat connfd : Int) (s : State) : State :=
  if netStat = 1 ∧ s.server.openwrtLink = 0 then
    if 0 < connfd then
      let s := openFile connfd
        { s with log := { s.log with connects := s.log.connects ++ [s.files] } }
      postMsg .openwrtConnected
        { s with server := { s.server with openwrtLink := 1, openwrtConnfd := connfd } }
    else s
  else if netStat = 0 ∧ s.server.openwrtLink = 1 then
    postMsg .openwrtDisconnect { s with server := { s.server with openwrtLink := 0 } }
  else s

/-- The end of `del_user`, with `release_receive_resource`. -/
def release (addr : Nat) (connfd : Int) (s : State) : State :=
  close connfd { s with
    server := { s.server with released := addr :: s.server.released }
    nodes := s.nodes.filter fun n => n.addr ≠ addr }

def delUser (connfd : Int) (s : State) : State :=
  let (server, tmpNode) := delUserNodeInList connfd s.server
  match tmpNode with
  | none => { s with server }
  | some n => release n.addr n.connfd { s with server }

/-- `MSG_ACCEPT_NEW_USER`. -/
def handleAcceptNewUser (addr : Nat) (s : State) : Except Fault State := do
  let newNode ← pointedTo addr s
  return { s with server := addNewUserNodeToList newNode s.server }

/-- `MSG_DEL_DISCONNECT_USER`. -/
def handleDelDisconnectUser (addr : Nat) (s : State) : Except Fault State := do
  let n ← pointedTo addr s
  return delUser n.connfd (unregisterEvent n.connfd s)

/-- `MSG_OPENWRT_CONNECTED`. -/
def handleOpenwrtConnected (ptr : Nat) (s : State) : State :=
  if s.server.openwrtLink = 0 then s
  else
    let (newUser, s) := newUserNode ptr s.server.openwrtConnfd s
    let s := { s with server := addNewUserNodeToList newUser s.server }
    match eventfdWrite newUser.ptr s.eventFd with
    | none => delUser s.server.openwrtConnfd s
    | some eventFd =>
        { s with eventFd, log := { s.log with written := s.log.written ++ [newUser] } }

/-- `MSG_OPENWRT_DISCONNECT`. -/
def handleOpenwrtDisconnect (s : State) : Except Fault State :=
  match findUserNodeByConnfd s.server.openwrtConnfd s.server with
  | none => .error .nullPointer
  | some n => do
      let g ← pointedTo n.addr s
      return postMsg (.delDisconnectUser g.addr) s

/-- The event loop takes one message; `ptr` is what `malloc` returns to it. -/
def eventLoop (ptr : Nat) (s : State) : Except Fault State :=
  match s.queue with
  | [] => .ok s
  | m :: queue =>
      let s := { s with queue }
      match m with
      | .acceptNewUser addr => handleAcceptNewUser addr s
      | .delDisconnectUser addr => handleDelDisconnectUser addr s
      | .openwrtConnected => .ok (handleOpenwrtConnected ptr s)
      | .openwrtDisconnect => handleOpenwrtDisconnect s
      | .request addr => do
          let _ ← pointedTo addr s
          return s

/-- A step of one of the three threads. -/
inductive Label where
  | accept (connfd : Int) (ptr : Nat)
  | eventFd
  | notify (addr : Nat)
  | recv (r : Received)
  | linkDetect (netStat connfd : Int)
  | handle (ptr : Nat)

def execute (s : State) : Label → Except Fault State
  | .accept connfd ptr => .ok (acceptConnection connfd ptr s)
  | .eventFd => eventFdReady s
  | .notify addr => processRecvEvent addr s
  | .recv r => receive r s
  | .linkDetect netStat connfd => .ok (linkDetectThread netStat connfd s)
  | .handle ptr => eventLoop ptr s

/-- `malloc` returns memory that is not in use. -/
def FreshPtr (s : State) (ptr : Nat) : Prop := ptr ≠ 0 ∧ ptr ∉ s.nodes.map Node.ptr

/-- The kernel returns a descriptor that is not open. The epoll thread takes the
next event when it is done with the last one, and an event for a session while its
descriptor is registered. -/
def Possible (s : State) : Label → Prop
  | .accept connfd ptr =>
      s.serving = none ∧ 0 ≤ connfd ∧ connfd ∉ numbers s ∧ FreshPtr s ptr
  | .eventFd => s.serving = none
  | .notify addr => s.serving = none ∧ addr ∈ s.interest.map Interest.addr
  | .recv _ => s.serving ≠ none
  | .linkDetect _ connfd => 0 < connfd → connfd ∉ numbers s
  | .handle ptr => FreshPtr s ptr

instance (s : State) (ptr : Nat) : Decidable (FreshPtr s ptr) :=
  inferInstanceAs (Decidable (_ ∧ _))

instance (s : State) (l : Label) : Decidable (Possible s l) :=
  match l with
  | .accept _ _ => inferInstanceAs (Decidable (_ ∧ _))
  | .eventFd => inferInstanceAs (Decidable (_ = _))
  | .notify _ => inferInstanceAs (Decidable (_ ∧ _))
  | .recv _ => inferInstanceAs (Decidable (_ ≠ _))
  | .linkDetect _ _ => inferInstanceAs (Decidable (_ → _))
  | .handle ptr => inferInstanceAs (Decidable (FreshPtr s ptr))

abbrev Step : State → Label → State → Prop := Executes Possible execute

theorem epollCtlAdd_eq_none_iff {n : Node} {s : State} :
    epollCtlAdd n s = none ↔ n.connfd ∈ s.interest.map Interest.connfd ∨ n.connfd ∉ numbers s := by
  unfold epollCtlAdd
  split
  · rename_i h
    exact iff_of_true rfl h
  · rename_i h
    exact iff_of_false (by simp) h

theorem epollCtlAdd_eq_some {n : Node} {s s' : State} (h : epollCtlAdd n s = some s') :
    n.connfd ∉ s.interest.map Interest.connfd ∧ n.connfd ∈ numbers s ∧
      s' = { s with interest := s.interest ++ [⟨n.connfd, n.addr⟩] } := by
  unfold epollCtlAdd at h
  split at h
  · cases h
  · rename_i hnot
    obtain ⟨hfree, hopened⟩ := not_or.mp hnot
    exact ⟨hfree, not_not.mp hopened, (Option.some.inj h).symm⟩

/-- Two states with the same sessions, where the second may have more descriptors
open and registered. -/
structure SameSessions (s s' : State) : Prop where
  allocated : s'.server.allocated = s.server.allocated
  head : s'.server.userSessionNodeHead = s.server.userSessionNodeHead
  released : s'.server.released = s.server.released
  nodes : s'.nodes = s.nodes
  numbers : ∀ c ∈ numbers s, c ∈ numbers s'
  interest : ∀ i ∈ s'.interest, i ∈ s.interest ∨ i.connfd ∈ SessionThreads.numbers s'

theorem SameSessions.of_eq {s s' : State} (hserver : s'.server = s.server)
    (hnodes : s'.nodes = s.nodes) (hopened : s'.opened = s.opened)
    (hinterest : ∀ i ∈ s'.interest, i ∈ s.interest) : SameSessions s s' where
  allocated := by rw [hserver]
  head := by rw [hserver]
  released := by rw [hserver]
  nodes := hnodes
  numbers := fun c hc => by rwa [SessionThreads.numbers, hopened]
  interest := fun i hi => .inl (hinterest i hi)

theorem SameSessions.refl (s : State) : SameSessions s s :=
  .of_eq rfl rfl rfl fun _ hi => hi

theorem sameSessions_openFile (connfd : Int) (s : State) :
    SameSessions s (openFile connfd s) := by
  refine ⟨rfl, rfl, rfl, rfl, fun c hc => ?_, fun _ hi => .inl hi⟩
  simp only [numbers, openFile, List.map_append]
  exact List.mem_append_left _ hc

theorem eventFdReady_same {s s' : State} (hok : eventFdReady s = .ok s') :
    SameSessions s s' ∧ s'.queue = s.queue := by
  unfold eventFdReady at hok
  split at hok
  · obtain rfl := Except.ok.inj hok
    exact ⟨.refl _, rfl⟩
  · split at hok
    · obtain rfl := Except.ok.inj hok
      exact ⟨.refl _, rfl⟩
    · dsimp only at hok
      split at hok
      · cases hok
      · rename_i n hn
        split at hok
        · cases hok
        · split at hok
          · obtain rfl := Except.ok.inj hok
            exact ⟨.of_eq rfl rfl rfl fun _ hi => hi, rfl⟩
          · rename_i s₂ hsome
            obtain ⟨-, hnumber, rfl⟩ := epollCtlAdd_eq_some hsome
            obtain rfl := Except.ok.inj hok
            refine ⟨⟨rfl, rfl, rfl, rfl, fun _ hc => hc, fun i hi => ?_⟩, rfl⟩
            rcases List.mem_append.mp hi with hold | hnew
            · exact .inl hold
            · rw [List.mem_singleton.mp hnew]
              exact .inr hnumber

/-- The session that `MSG_OPENWRT_CONNECTED` enters. -/
def openwrtNode (ptr : Nat) (s : State) : Node :=
  ⟨s.server.allocated, ptr, s.server.openwrtConnfd⟩

/-- The node of the link, put into the list. -/
def enterOpenwrt (ptr : Nat) (s : State) : State :=
  let (newUser, s) := newUserNode ptr s.server.openwrtConnfd s
  { s with server := addNewUserNodeToList newUser s.server }

theorem enterOpenwrt_server (ptr : Nat) (s : State) : (enterOpenwrt ptr s).server =
    Server.addNewUserNodeToList s.server.openwrtConnfd s.server :=
  (server_addNewUserNodeToList ptr s.server.openwrtConnfd s).symm

theorem delUserNodeInList_enterOpenwrt (ptr : Nat) (s : State) :
    ∃ u, (delUserNodeInList s.server.openwrtConnfd (enterOpenwrt ptr s).server).2 = some u ∧
      u.connfd = s.server.openwrtConnfd := by
  have hany : ((enterOpenwrt ptr s).server.userSessionNodeHead.any
      fun n => n.connfd = s.server.openwrtConnfd) = true := by
    simp [enterOpenwrt_server, Server.addNewUserNodeToList]
  obtain ⟨u, hu⟩ := Option.isSome_iff_exists.mp
    (List.find?_isSome.mpr (List.any_eq_true.mp hany))
  refine ⟨u, ?_, by simpa using List.find?_some hu⟩
  simp only [delUserNodeInList, unlinkLoop_cursor_of_any hany, hu]

/-- What `MSG_OPENWRT_CONNECTED` may do, case by case. -/
inductive OpenwrtConnected (ptr : Nat) (s : State) : State → Prop where
  | linkIsDown (h : s.server.openwrtLink = 0) : OpenwrtConnected ptr s s
  | written (h : s.server.openwrtLink ≠ 0)
      (hwrite : ¬ 0xfffffffffffffffe < s.eventFd.count + ptr) :
      OpenwrtConnected ptr s { enterOpenwrt ptr s with
        eventFd := { s.eventFd with count := s.eventFd.count + ptr }
        log := { s.log with written := s.log.written ++ [openwrtNode ptr s] } }
  | failed (h : s.server.openwrtLink ≠ 0)
      (hwrite : 0xfffffffffffffffe < s.eventFd.count + ptr) :
      OpenwrtConnected ptr s (delUser s.server.openwrtConnfd (enterOpenwrt ptr s))

theorem handleOpenwrtConnected_connected (ptr : Nat) (s : State) :
    OpenwrtConnected ptr s (handleOpenwrtConnected ptr s) := by
  unfold handleOpenwrtConnected
  split
  · rename_i hlink
    exact .linkIsDown hlink
  · rename_i hlink
    by_cases hwrite : 0xfffffffffffffffe < s.eventFd.count + ptr
    · have hfailed : eventfdWrite ptr s.eventFd = none := if_pos hwrite
      simp only [newUserNode, hfailed]
      exact .failed hlink hwrite
    · have hadded : eventfdWrite ptr s.eventFd =
          some { s.eventFd with count := s.eventFd.count + ptr } := if_neg hwrite
      simp only [newUserNode, hadded]
      exact .written hlink hwrite

/-- What `del_user` does to the rest for the session that it releases. -/
structure Released (node : Option UserSessionNode) (s s' : State) : Prop where
  eventFd : s'.eventFd = s.eventFd
  log : s'.log = s.log
  allocated : s'.server.allocated = s.server.allocated
  head : ∀ u ∈ s'.server.userSessionNodeHead, u ∈ s.server.userSessionNodeHead
  sublist : s'.nodes.Sublist s.nodes
  nodes : ∀ n ∈ s.nodes, (∀ u ∈ node, n.addr ≠ u.addr) → n ∈ s'.nodes
  opened : ∀ d, d ∈ s'.opened ↔ d ∈ s.opened ∧ ∀ u ∈ node, d.number ≠ u.connfd
  interest : ∀ i ∈ s'.interest, i ∈ s.interest

theorem mem_of_pointedTo {addr : Nat} {n : Node} {s : State} (h : pointedTo addr s = .ok n) :
    n ∈ s.nodes ∧ n.addr = addr := by
  unfold pointedTo at h
  split at h
  · cases h
  · rename_i n' hfind
    obtain rfl := Except.ok.inj h
    exact ⟨List.mem_of_find?_eq_some hfind, by simpa using List.find?_some hfind⟩

theorem mem_numbers_close {connfd c : Int} {s : State} :
    c ∈ numbers (close connfd s) ↔ c ∈ numbers s ∧ c ≠ connfd := by
  simp only [numbers, close, List.mem_map, List.mem_filter, decide_eq_true_eq]
  constructor
  · rintro ⟨d, ⟨hd, hne⟩, rfl⟩
    exact ⟨⟨d, hd, rfl⟩, hne⟩
  · rintro ⟨⟨d, hd, rfl⟩, hne⟩
    exact ⟨d, ⟨hd, hne⟩, rfl⟩

theorem Released.numbers {node : Option UserSessionNode} {s s' : State} (h : Released node s s')
    (c : Int) : c ∈ numbers s' ↔ c ∈ numbers s ∧ ∀ u ∈ node, c ≠ u.connfd := by
  constructor
  · intro hc
    obtain ⟨d, hd, rfl⟩ := List.mem_map.mp hc
    obtain ⟨hd, hother⟩ := (h.opened d).mp hd
    exact ⟨List.mem_map_of_mem hd, hother⟩
  · rintro ⟨hc, hother⟩
    obtain ⟨d, hd, rfl⟩ := List.mem_map.mp hc
    exact List.mem_map_of_mem ((h.opened d).mpr ⟨hd, hother⟩)

theorem delUser_released (connfd : Int) (s : State) :
    Released (delUserNodeInList connfd s.server).2 s (delUser connfd s) := by
  have hhead : ∀ u ∈ (delUserNodeInList connfd s.server).1.userSessionNodeHead,
      u ∈ s.server.userSessionNodeHead := by
    intro u hu
    simp only [delUserNodeInList, unlinkLoop_list] at hu
    exact List.mem_of_mem_eraseP hu
  cases hnode : (delUserNodeInList connfd s.server).2 with
  | none =>
      simp only [delUser, hnode]
      exact ⟨rfl, rfl, rfl, hhead, List.Sublist.refl _, fun _ hn _ => hn,
        fun c => by simp, fun _ hi => hi⟩
  | some u =>
      simp only [delUser, hnode]
      refine ⟨rfl, rfl, rfl, hhead, List.filter_sublist, fun n hn hne => ?_, fun d => ?_, ?_⟩
      · exact List.mem_filter.mpr ⟨hn, by simpa using hne u rfl⟩
      · simp [release, close]
      · intro i hi
        exact List.mem_of_mem_filter hi

/-- The state behind `CreateServerThread`: no session yet, and an eventfd of any
number. -/
structure Started (s : State) : Prop where
  server : s.server = createServerThread
  nodes : s.nodes = []
  queue : s.queue = []
  numbers : (numbers s).Nodup
  files : ∀ d ∈ s.opened, d.file < s.files
  interest : s.interest = []
  serving : s.serving = none
  count : s.eventFd.count = 0
  log : s.log = ⟨[], [], [], [], []⟩

def startState (number : Nat) : State :=
  { server := createServerThread, nodes := [], queue := [], opened := [], files := 0,
    interest := [], serving := none, eventFd := { number, count := 0 },
    log := ⟨[], [], [], [], []⟩ }

theorem startState_started (number : Nat) : Started (startState number) := by
  constructor <;> simp [startState, numbers]

end GwWeb.SessionThreads
