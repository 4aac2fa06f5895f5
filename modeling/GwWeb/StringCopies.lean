import GwWeb.EventProcess
import GwWeb.FirstMatch
import GwWeb.RequestParsing
import GwWeb.TransitionRuns

/-!
The strings of a request on their way through the program: the receive thread
copies them into a `web_msg_t`, the event loop from there into the session, into
its answers and into the names of files.
-/

namespace GwWeb.StringCopies

open ByteMemory
open FirstMatch
open TextReading
open TransitionRuns
open GwWeb.FrameDispatch
open GwWeb.RequestParsing
open GwWeb.WebCommon
open GwWeb.MosquittoBroker
open GwWeb.DmaHandler

/-- A copy of `length` bytes, the terminating NUL included, to the start of a
buffer of `capacity` bytes. -/
structure Copy where
  capacity : Nat
  length : Nat
  deriving DecidableEq, Repr

/-- The copy stays inside its buffer. -/
def Copy.Inside (c : Copy) : Prop := c.length ≤ c.capacity

instance (c : Copy) : Decidable c.Inside := inferInstanceAs (Decidable (_ ≤ _))

/-- A request of which `localIp`, `currentTime` and `file_name` are strings. -/
structure Request where
  root : CJson
  localIp : String
  currentTime : String
  fileName : String
  has_localIp : valuestring root "localIp" = .ok localIp
  has_currentTime : valuestring root "currentTime" = .ok currentTime
  has_fileName : valuestring root "file_name" = .ok fileName

/-- The bytes of a string, without its NUL. -/
def len (s : String) : Nat := (stringBytes s).length

/-- A `msg_st` with its `web_msg_t`, on the way to the event loop. -/
structure Message where
  event : MsgEvent
  connfd : Int
  req : Request
  web : WebMsg
  ends : ∃ n : Nat, web.strings n = 0

/-- `localIP` of a message, as a C string. -/
def Message.localIP (m : Message) : CStr where
  bytes := fun n => m.web.strings n
  ends := m.ends

/-- `user_session_node`; `userIp` is NULL or a block of 64 bytes. -/
structure Session where
  connfd : Int
  userIp : Option CStr

/-- The sessions, and the messages that wait. -/
structure CopyState where
  sessions : List Session
  queue : List Message

def findUserNode (connfd : Int) (sessions : List Session) : Option Session :=
  sessions.find? fun n => n.connfd = connfd

/-- A record string of at most 127 characters. -/
structure RecordStr where
  text : String
  short : len text ≤ 127

/-- A page comes or goes, a frame arrives, or a message is handled. -/
inductive Label where
  | acceptNewUser (connfd : Int)
  | delDisconnectUser (connfd : Int)
  /-- A frame arrives; `web` is what `malloc` returns for its `web_msg_t`. -/
  | receive (event : MsgEvent) (connfd : Int) (req : Request) (web : WebMsg)
  /-- The event loop takes the next message, with the modules in any state. It
  answers with a record string or not; `fresh` is what `malloc(64)` returns. -/
  | handle (broker : GBrokerPara) (dma : GDmaPara) (answer : Option RecordStr) (fresh : Memory)

/-- `parseRequestJson` on the JSON of the request. -/
def Request.parse (req : Request) (web : WebMsg) : Except Fault WebMsg :=
  parseRequestJson (fun _ => some req.root) id (fun _ => 0) web

/-- `memcpy(user_ip, localIP, strlen(localIP) + 1)`. -/
def copyUserIp (s : CStr) (fresh : Memory) : CStr where
  bytes := fun n => store fresh 0 ((List.range (s.strlen + 1)).map s.bytes) n
  ends := by
    refine ⟨s.strlen, ?_⟩
    have hlast : s.strlen < ((List.range (s.strlen + 1)).map s.bytes).length := by
      rw [List.length_map, List.length_range]
      exact Nat.lt_succ_self _
    rw [store_zero_inside fresh hlast]
    simp [s.bytes_strlen]

/-- The case of `MSG_INQUIRY_SYSTEM_STATE`. -/
def recordUserIp (m : Message) (fresh : Memory) (sessions : List Session) : List Session :=
  match findUserNode m.connfd sessions with
  | some { userIp := none, .. } =>
      updateFirst (fun n => n.connfd = m.connfd)
        (fun n => { n with userIp := some (copyUserIp m.localIP fresh) }) sessions
  | _ => sessions

/-- One step, with the copies it makes. -/
inductive Step : CopyState → Label → CopyState → Prop where
  | acceptNewUser (s : CopyState) (connfd : Int) :
      Step s (.acceptNewUser connfd)
        { s with sessions := s.sessions ++ [{ connfd, userIp := none }] }
  | delDisconnectUser (s : CopyState) (connfd : Int) :
      Step s (.delDisconnectUser connfd)
        { s with sessions := s.sessions.eraseP fun n => n.connfd = connfd }
  | receive (s : CopyState) (m : Message) (web : WebMsg) (hparse : m.req.parse web = .ok m.web) :
      Step s (.receive m.event m.connfd m.req web) { s with queue := s.queue ++ [m] }
  | handle (s : CopyState) (m : Message) (ms : List Message) (hqueue : s.queue = m :: ms)
      (broker : GBrokerPara) (dma : GDmaPara) (answer : Option RecordStr) (fresh : Memory) :
      Step s (.handle broker dma answer fresh)
        { sessions :=
            if m.event = .inquirySystemState then recordUserIp m fresh s.sessions else s.sessions
          queue := ms }

section Copies

/-- The copies of `parseRequestJson`. -/
def parseCopies (root : CJson) : List Copy :=
  let copy (key : String) : List Copy :=
    match valuestring root key with
    | .ok s => [{ capacity := 128, length := len s + 1 }]
    | .error _ => []
  copy "localIp" ++ copy "currentTime"

/-- A save command takes its start branch. -/
def StartsSave (slot : Option WriteFile) (root : CJson) : Prop :=
  valueint root "op_cmd" = .ok 1 ∧ (slot.getD .fresh).enable ≠ 1

/-- The request starts an RSSI save. -/
def RssiStarts (connfd : Int) (root : CJson) (g : GBrokerPara) : Prop :=
  valueint root "type" = .ok typeRssiControl ∧ (findNode connfd g).isSome = true ∧
    StartsSave ((findNode connfd g).bind fun n => g.save.fileT n.addr) root

def CsiStarts (connfd : Int) (root : CJson) (g : GDmaPara) : Prop :=
  valueint root "type" = .ok typeControlSaveCsi ∧
    StartsSave ((findCsiSaveUserNode connfd g).bind fun n => g.save.fileT n.addr) root

instance (slot : Option WriteFile) (root : CJson) : Decidable (StartsSave slot root) :=
  inferInstanceAs (Decidable (_ ∧ _))

instance (connfd : Int) (root : CJson) (g : GBrokerPara) : Decidable (RssiStarts connfd root g) :=
  inferInstanceAs (Decidable (_ ∧ _ ∧ _))

instance (connfd : Int) (root : CJson) (g : GDmaPara) : Decidable (CsiStarts connfd root g) :=
  inferInstanceAs (Decidable (_ ∧ _))

/-- The name of the file is printed behind the directory. -/
def nameCopies (root : CJson) : List Copy :=
  match valuestring root "file_name" with
  | .ok name => [{ capacity := 1024, length := len logDirectory + len name + 1 }]
  | .error _ => []

/-- `send_cmd_state` prints into `tmp_record`; a NULL `user_ip` as `(null)`. -/
def cmdStateCopies (connfd : Int) (answer : Option RecordStr) (sessions : List Session) :
    List Copy :=
  match answer with
  | none => []
  | some recordStr =>
      let user :=
        match findUserNode connfd sessions with
        | some { userIp := some ip, .. } => ip.strlen
        | some { userIp := none, .. } => len "(null)"
        | none => len "No user"
      [{ capacity := 256, length := user + len " : " + len recordStr.text + 1 }]

/-- The copy to `user_ip`, which a session without one makes. -/
def userIpCopies (m : Message) (sessions : List Session) : List Copy :=
  match findUserNode m.connfd sessions with
  | some { userIp := none, .. } => [{ capacity := 64, length := m.localIP.strlen + 1 }]
  | _ => []

/-- The copies of the event loop at a message. -/
def handleCopies (m : Message) (broker : GBrokerPara) (dma : GDmaPara) (answer : Option RecordStr)
    (sessions : List Session) : List Copy :=
  (match m.event with
    | .inquirySystemState => userIpCopies m sessions
    | .controlRssi =>
        if RssiStarts m.connfd m.req.root broker then nameCopies m.req.root else []
    | .controlSaveIqData =>
        if CsiStarts m.connfd m.req.root dma then nameCopies m.req.root else []
    | _ => []) ++ cmdStateCopies m.connfd answer sessions

/-- All copies of a step. -/
def copies (s : CopyState) : Label → List Copy
  | .receive _ _ req _ => parseCopies req.root
  | .handle broker dma answer _ =>
      match s.queue with
      | [] => []
      | m :: _ => handleCopies m broker dma answer s.sessions
  | _ => []

end Copies

/-- The session of the message has no address yet. -/
def Unnamed (m : Message) (sessions : List Session) : Prop :=
  ∃ n, findUserNode m.connfd sessions = some n ∧ n.userIp = none

/-- The strings of a message fit what they are copied to. -/
structure HandledFits (m : Message) (broker : GBrokerPara) (dma : GDmaPara)
    (sessions : List Session) : Prop where
  localIp : m.event = .inquirySystemState → Unnamed m sessions → len m.req.localIp ≤ 63
  rssiName : m.event = .controlRssi → RssiStarts m.connfd m.req.root broker →
    len logDirectory + len m.req.fileName ≤ 1023
  csiName : m.event = .controlSaveIqData → CsiStarts m.connfd m.req.root dma →
    len logDirectory + len m.req.fileName ≤ 1023

/-- The strings that a step copies fit. -/
def Fits (s : CopyState) : Label → Prop
  | .receive _ _ req _ => len req.localIp ≤ 127 ∧ len req.currentTime ≤ 127
  | .handle broker dma _ _ => ∀ m ∈ s.queue.head?, HandledFits m broker dma s.sessions
  | _ => True

/-- What is in flight and in the sessions has been copied whole. -/
structure Whole (s : CopyState) : Prop where
  queue : ∀ m ∈ s.queue, m.localIP.strlen = len m.req.localIp
  sessions : ∀ n ∈ s.sessions, ∀ ip ∈ n.userIp, ip.strlen ≤ 63

variable {s s' : CopyState} {l : Label} {m : Message}

theorem strlen_copyUserIp (s : CStr) (fresh : Memory) : (copyUserIp s fresh).strlen = s.strlen := by
  have hbytes : ∀ i, i ≤ s.strlen → (copyUserIp s fresh).bytes i = s.bytes i := by
    intro i hi
    have hin : i < ((List.range (s.strlen + 1)).map s.bytes).length := by
      rw [List.length_map, List.length_range]
      exact Nat.lt_succ_of_le hi
    show store fresh 0 _ i = _
    rw [store_zero_inside fresh hin]
    simp [Nat.lt_succ_of_le hi]
  rw [CStr.strlen_eq_iff, hbytes _ (Nat.le_refl _)]
  refine ⟨s.bytes_strlen, fun i hi => ?_⟩
  rw [hbytes i (Nat.le_of_lt hi)]
  exact s.bytes_ne_zero hi

theorem withItem_of_valuestring {root : CJson} {key v : String} (h : valuestring root key = .ok v)
    (put : List UInt8 → WebMsg → WebMsg) (w : WebMsg) :
    withItem id (some root) key put w = .ok (put (stringBytes v) w) := by
  have hhas : hasObjectItem id (some root) key = true := by
    unfold valuestring at h
    split at h
    · rename_i hitem
      simp [hasObjectItem, hitem]
    · cases h
  exact withItem_of_ok _ hhas h put w

theorem parse_strings {req : Request} {web web' : WebMsg} (h : req.parse web = .ok web') :
    web'.strings = store (store web.strings 0 (stringBytes req.localIp ++ [0])) 128
      (stringBytes req.currentTime ++ [0]) := by
  simp only [Request.parse, parseRequestJson, bind, Except.bind,
    withItem_of_valuestring req.has_localIp, withItem_of_valuestring req.has_currentTime] at h
  exact Except.ok.inj h ▸ rfl

theorem strlen_localIP {web : WebMsg} (hparse : m.req.parse web = .ok m.web)
    (hfits : len m.req.localIp ≤ 127) : m.localIP.strlen = len m.req.localIp := by
  have hbytes : ∀ i, i ≤ len m.req.localIp →
      m.localIP.bytes i = (stringBytes m.req.localIp ++ [0]).getD i 0 := by
    intro i hi
    have hin : i < (stringBytes m.req.localIp ++ [0]).length := by
      rw [List.length_append, List.length_singleton]
      exact Nat.lt_succ_of_le hi
    show m.web.strings i = _
    rw [parse_strings hparse, store_outside (.inl (by omega)), store_zero_inside _ hin]
  rw [CStr.strlen_eq_iff, hbytes _ (Nat.le_refl _)]
  refine ⟨by simp [len], fun i hi => ?_⟩
  rw [hbytes i (Nat.le_of_lt hi)]
  have hi' : i < (stringBytes m.req.localIp).length := hi
  have hget : (stringBytes m.req.localIp ++ [0]).getD i 0 = (stringBytes m.req.localIp)[i] := by
    simp [List.getElem?_append_left hi', List.getElem?_eq_getElem hi']
  rw [hget]
  exact stringBytes_ne_zero (List.getElem_mem hi')

theorem parseCopies_inside {req : Request} :
    (∀ c ∈ parseCopies req.root, c.Inside) ↔ len req.localIp ≤ 127 ∧ len req.currentTime ≤ 127 := by
  have hcopies : parseCopies req.root = [{ capacity := 128, length := len req.localIp + 1 },
      { capacity := 128, length := len req.currentTime + 1 }] := by
    simp [parseCopies, req.has_localIp, req.has_currentTime]
  rw [hcopies, List.forall_mem_cons, List.forall_mem_singleton]
  exact and_congr Nat.succ_le_succ_iff Nat.succ_le_succ_iff

theorem nameCopies_inside {req : Request} :
    (∀ c ∈ nameCopies req.root, c.Inside) ↔ len logDirectory + len req.fileName ≤ 1023 := by
  have hcopies : nameCopies req.root =
      [{ capacity := 1024, length := len logDirectory + len req.fileName + 1 }] := by
    simp only [nameCopies, req.has_fileName]
  rw [hcopies, List.forall_mem_singleton]
  exact Nat.succ_le_succ_iff

theorem userIpCopies_inside {sessions : List Session} :
    (∀ c ∈ userIpCopies m sessions, c.Inside) ↔
      (Unnamed m sessions → m.localIP.strlen ≤ 63) := by
  unfold userIpCopies Unnamed
  split
  · rename_i n hfind
    rw [List.forall_mem_singleton]
    exact ⟨fun h _ => Nat.succ_le_succ_iff.mp h,
      fun h => Nat.succ_le_succ_iff.mpr (h ⟨_, hfind, rfl⟩)⟩
  · rename_i hother
    simp only [List.not_mem_nil, false_imp_iff, implies_true, true_iff]
    rintro ⟨⟨connfd, userIp⟩, hfind, rfl⟩
    exact absurd hfind (hother connfd)

theorem cmdStateCopies_inside (connfd : Int) (answer : Option RecordStr) {sessions : List Session}
    (h : ∀ n ∈ sessions, ∀ ip ∈ n.userIp, ip.strlen ≤ 63) :
    ∀ c ∈ cmdStateCopies connfd answer sessions, c.Inside := by
  cases answer with
  | none => simp [cmdStateCopies]
  | some recordStr =>
      have hshort := recordStr.short
      have hcolon : len " : " = 3 := by decide
      have huser : len "(null)" ≤ 63 ∧ len "No user" ≤ 63 := by decide
      simp only [cmdStateCopies, List.forall_mem_singleton, Copy.Inside, hcolon]
      split
      · rename_i ip hfind
        have hip := h _ (List.mem_of_find?_eq_some hfind) ip rfl
        omega
      · omega
      · omega

theorem handleCopies_inside {broker : GBrokerPara} {dma : GDmaPara} (answer : Option RecordStr)
    (hwhole : Whole s) (hm : m ∈ s.queue) :
    (∀ c ∈ handleCopies m broker dma answer s.sessions, c.Inside) ↔
      HandledFits m broker dma s.sessions := by
  have hanswer := cmdStateCopies_inside m.connfd answer hwhole.sessions
  have hlen := hwhole.queue m hm
  have hown : ∀ {own : List Copy}, (∀ c ∈ own ++ cmdStateCopies m.connfd answer s.sessions,
      c.Inside) ↔ ∀ c ∈ own, c.Inside := by
    intro own
    rw [List.forall_mem_append]
    exact and_iff_left hanswer
  unfold handleCopies
  rw [hown]
  split
  · rename_i hevent
    rw [userIpCopies_inside, hlen]
    exact ⟨fun h => ⟨fun _ => h, by simp [hevent], by simp [hevent]⟩, fun h => h.localIp hevent⟩
  · rename_i hevent
    constructor
    · intro h
      refine ⟨by simp [hevent], fun _ hstarts => ?_, by simp [hevent]⟩
      rw [if_pos hstarts] at h
      exact nameCopies_inside.mp h
    · intro h
      split
      · rename_i hstarts
        exact nameCopies_inside.mpr (h.rssiName hevent hstarts)
      · simp
  · rename_i hevent
    constructor
    · intro h
      refine ⟨by simp [hevent], by simp [hevent], fun _ hstarts => ?_⟩
      rw [if_pos hstarts] at h
      exact nameCopies_inside.mp h
    · intro h
      split
      · rename_i hstarts
        exact nameCopies_inside.mpr (h.csiName hevent hstarts)
      · simp
  · rename_i hinquiry hrssi hcsi
    exact ⟨fun _ => ⟨fun h => absurd h hinquiry, fun h => absurd h hrssi, fun h => absurd h hcsi⟩,
      by simp⟩

/-- The copies of a step stay inside if and only if its strings fit. -/
theorem copies_inside_iff (hwhole : Whole s) (hstep : Step s l s') :
    (∀ c ∈ copies s l, c.Inside) ↔ Fits s l := by
  cases hstep with
  | acceptNewUser | delDisconnectUser => simp [copies, Fits]
  | receive m web hparse => exact parseCopies_inside
  | handle m ms hqueue broker dma answer fresh =>
      have hm : m ∈ s.queue := by simp [hqueue]
      simp only [copies, Fits, hqueue, List.head?_cons, Option.mem_some_iff, forall_eq']
      exact handleCopies_inside answer hwhole hm

theorem Whole.step (hwhole : Whole s) (hfits : Fits s l) (hstep : Step s l s') : Whole s' := by
  cases hstep with
  | acceptNewUser connfd =>
      refine ⟨hwhole.queue, ?_⟩
      rintro n hn
      rcases List.mem_append.mp hn with hn | hn
      · exact hwhole.sessions n hn
      · simp [List.mem_singleton.mp hn]
  | delDisconnectUser connfd =>
      exact ⟨hwhole.queue, fun n hn => hwhole.sessions n (List.mem_of_mem_eraseP hn)⟩
  | receive m web hparse =>
      refine ⟨fun m' hm' => ?_, hwhole.sessions⟩
      rcases List.mem_append.mp hm' with hm' | hm'
      · exact hwhole.queue m' hm'
      · rw [List.mem_singleton.mp hm']
        exact strlen_localIP hparse hfits.1
  | handle m ms hqueue broker dma answer fresh =>
      have hm : m ∈ s.queue := by simp [hqueue]
      refine ⟨fun m' hm' => hwhole.queue m' (by simp [hqueue, hm']), ?_⟩
      dsimp only
      split
      · rename_i hevent
        have hfits : HandledFits m broker dma s.sessions := hfits m (by simp [hqueue])
        unfold recordUserIp
        split
        · rename_i connfd hfind
          have hshort := hfits.localIp hevent ⟨_, hfind, rfl⟩
          intro n hn
          rcases mem_updateFirst hn with hold | ⟨n', -, -, rfl⟩
          · exact hwhole.sessions n hold
          · intro ip hip
            rw [← Option.some.inj hip, strlen_copyUserIp, hwhole.queue m hm]
            exact hshort
        · exact hwhole.sessions
      · exact hwhole.sessions

def CopyState.start : CopyState := { sessions := [], queue := [] }

theorem whole_start : Whole .start where
  queue := by simp [CopyState.start]
  sessions := by simp [CopyState.start]

/-- In a run all copies stay inside their buffers if and only if the strings of
every step fit. -/
theorem string_copies_inside_iff {trs : List (Transition CopyState Label)}
    (h : Run Step .start trs s) :
    (∀ tr ∈ trs, ∀ c ∈ copies tr.before tr.label, c.Inside) ↔
      ∀ tr ∈ trs, Fits tr.before tr.label := by
  have hkeep : ∀ a e b, Whole a → Fits a e → Step a e b →
      Whole b ∧ ∀ c ∈ copies a e, c.Inside :=
    fun a e b hwhole hfits hstep =>
      ⟨hwhole.step hfits hstep, (copies_inside_iff hwhole hstep).mpr hfits⟩
  have hbreak : ∀ a e b, Whole a → ¬ Fits a e → Step a e b → ¬ ∀ c ∈ copies a e, c.Inside :=
    fun a e b hwhole hfits hstep hinside =>
      hfits ((copies_inside_iff hwhole hstep).mp hinside)
  exact h.forall_good_iff hkeep hbreak whole_start

/-- The message that `parseRequestJson` leads to. -/
def Request.message (req : Request) (event : MsgEvent) (connfd : Int) (web : WebMsg) : Message where
  event := event
  connfd := connfd
  req := req
  web := putCurrentTime (stringBytes req.currentTime) (putLocalIP (stringBytes req.localIp)
    { web with arg1 := -1, bufData := none, bufDataLen := 0 })
  ends := by
    refine ⟨128 + len req.currentTime, ?_⟩
    have hlast : len req.currentTime < (stringBytes req.currentTime ++ [0]).length := by
      rw [List.length_append, List.length_singleton]
      exact Nat.lt_succ_self _
    show store _ 128 (stringBytes req.currentTime ++ [0]) _ = 0
    rw [Int.natCast_add, Int.cast_ofNat_Int, store_inside _ 128 hlast]
    simp [len]

theorem parse_message (req : Request) (event : MsgEvent) (connfd : Int) (web : WebMsg) :
    req.parse web = .ok (req.message event connfd web).web := by
  simp only [Request.parse, parseRequestJson, bind, Except.bind,
    withItem_of_valuestring req.has_localIp, withItem_of_valuestring req.has_currentTime]
  rfl

/-- A page with this address opens. -/
def pageRequest (localIp : String) : Request where
  root := fun key =>
    if key = "localIp" then some { valueint := 0, valuestring := some localIp }
    else if key = "currentTime" then some { valueint := 0, valuestring := some "2020-3-9" }
    else if key = "file_name" then some { valueint := 0, valuestring := some "a" }
    else none
  localIp := localIp
  currentTime := "2020-3-9"
  fileName := "a"
  has_localIp := rfl
  has_currentTime := rfl
  has_fileName := rfl

def blankWeb : WebMsg :=
  { arg1 := 0, pointAddr1 := 0, bufData := none, bufDataLen := 0, strings := fun _ => 0 }

def opened : CopyState := { sessions := [{ connfd := 7, userIp := none }], queue := [] }

def inquiryOf (localIp : String) : Message :=
  (pageRequest localIp).message .inquirySystemState 7 blankWeb

def idle : EventProcess.State := EventProcess.startState ⟨"dev", "1"⟩ ⟨"dev", "0"⟩

/-- The page connects, and its inquiry is received and handled. -/
def pageRun (localIp : String) : List (Transition CopyState Label) :=
  [⟨.start, .acceptNewUser 7, opened⟩,
    ⟨opened, .receive .inquirySystemState 7 (pageRequest localIp) blankWeb,
      { opened with queue := [inquiryOf localIp] }⟩,
    ⟨{ opened with queue := [inquiryOf localIp] },
      .handle idle.broker idle.dma none fun _ => 0,
      { sessions := recordUserIp (inquiryOf localIp) (fun _ => 0) opened.sessions, queue := [] }⟩]

theorem run_pageRun (localIp : String) : Run Step .start (pageRun localIp)
    { sessions := recordUserIp (inquiryOf localIp) (fun _ => 0) opened.sessions, queue := [] } :=
  .cons (.acceptNewUser _ _) (.cons (.receive _ (inquiryOf localIp) blankWeb (parse_message ..))
    (.cons (.handle _ (inquiryOf localIp) [] rfl _ _ _ _) (.nil _)))

theorem string_copies_inside_page :
    (pageRun "192.168.0.100").length = 3 ∧
      ∀ tr ∈ pageRun "192.168.0.100", ∀ c ∈ copies tr.before tr.label, c.Inside := by
  have hip : len "192.168.0.100" = 13 := by decide
  have htime : len "2020-3-9" = 8 := by decide
  refine ⟨rfl, (string_copies_inside_iff (run_pageRun _)).mpr ?_⟩
  simp only [pageRun, List.forall_mem_cons, List.not_mem_nil, false_imp_iff, implies_true,
    and_true]
  refine ⟨trivial, ⟨by show len "192.168.0.100" ≤ 127; omega, by show len "2020-3-9" ≤ 127; omega⟩,
    fun m hm => ?_⟩
  obtain rfl := Option.some.inj hm
  refine ⟨fun _ _ => by show len "192.168.0.100" ≤ 63; omega, fun h => ?_, fun h => ?_⟩
  · exact absurd h (by decide)
  · exact absurd h (by decide)

/-- 64 characters. -/
def longAddress : String := "1234567890123456789012345678901234567890123456789012345678901234"

/-- They fit `localIP`, but not `user_ip`. -/
theorem long_address_not_inside :
    Run Step .start (pageRun longAddress)
      { sessions := recordUserIp (inquiryOf longAddress) (fun _ => 0) opened.sessions
        queue := [] } ∧
    (∃ tr ∈ pageRun longAddress, { capacity := 64, length := 65 } ∈ copies tr.before tr.label) ∧
    ¬ ∀ tr ∈ pageRun longAddress, ∀ c ∈ copies tr.before tr.label, c.Inside := by
  have hlen : len longAddress = 64 := by decide
  have hstrlen : (inquiryOf longAddress).localIP.strlen = 64 := by
    rw [strlen_localIP (parse_message ..) (by show len longAddress ≤ 127; omega)]
    exact hlen
  have hcopy : ∃ tr ∈ pageRun longAddress,
      { capacity := 64, length := 65 } ∈ copies tr.before tr.label := by
    refine ⟨_, List.mem_cons_of_mem _ (List.mem_cons_of_mem _ List.mem_cons_self), ?_⟩
    show _ ∈ [{ capacity := 64, length := (inquiryOf longAddress).localIP.strlen + 1 : Copy }]
    rw [hstrlen]
    exact List.mem_singleton.mpr rfl
  refine ⟨run_pageRun _, hcopy, fun h => ?_⟩
  obtain ⟨tr, htr, hmem⟩ := hcopy
  exact absurd (h tr htr _ hmem) (by decide)

end GwWeb.StringCopies
