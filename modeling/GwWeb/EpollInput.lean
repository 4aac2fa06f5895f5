import GwWeb.EdgeQuiescence
import GwWeb.FrameDispatch
import GwWeb.ReceiveDeframing

/-!
`runEpollServer` of `server.c` with `process_recv_event` and `receive`, while any number
of peers connect, send and hang up: what the thread posts about each connection.
-/

namespace GwWeb.EpollInput

open ByteMemory
open EdgeTriggered
open StreamDecoding
open TransitionRuns
open GwWeb.FrameDispatch
open GwWeb.Receive
open GwWeb.ReceiveDeframing

/-- What the epoll thread does for a connection: a message to the event loop, with the
JSON text if there is one, or an answer at once. -/
inductive Effect where
  | posted (msgType : BitVec 32) (msgJson : Option (List UInt8))
  | answered (type : BitVec 32)
  deriving DecidableEq

/-- The functions in `msg_flow`, for one frame. -/
def callEffects (call : FrameCall) : List Effect :=
  match funFor call.type, idxMsgFor call.type with
  | some .processNoJsonFun, some msgType => [.posted msgType none]
  | some .processJsonFun, some msgType => [.posted msgType (some call.jsonfile)]
  | some .fastResponseFun, some type => [.answered type]
  | _, _ => []

/-- What `recv` has returned. -/
def recvResult : Input UInt8 → RecvResult
  | .data bytes nonempty => .data bytes nonempty
  | .again => .again
  | .closed => .closed
  | .error => .error

/-- What `processRecvEvent` does next, by `working`. -/
def mode (g : GReceivePara) : Mode :=
  match g.working with
  | .working => .reading
  | .socketClose => .shut
  | .noReadWork | .other => .idle

/-- `process_recv_event`, whose loop calls `receive` while `working` is `WORKING`. The
listener posts the new session; one that the eventfd hands over is in the list already. -/
def processRecvEvent (myNtohl : (Nat → UInt8) → BitVec 32) :
    Handler UInt8 Effect GReceivePara where
  start g := { g with working := .working }
  mode := mode
  take g input g' effects := ∃ fuel calls,
    receive myNtohl fuel g (recvResult input) = some (g', calls) ∧
      effects = calls.flatMap callEffects
  opening
    | .accepted => [.posted MsgEvent.acceptNewUser.code none]
    | .handedOver => []
  closing := .posted MsgEvent.delDisconnectUser.code none

/-- The size of `events` in `runEpollServer`. -/
def MAX_EVENTS : Nat := 30

/-- The input thread with its sessions. -/
abbrev Epoll := EdgeTriggered.State Nat UInt8 Effect GReceivePara

/-- No connection yet. `recvbuf` of a session comes from `malloc`. -/
structure Started (s : Epoll) : Prop where
  connections : ∀ k, ∃ connfd recvbuf,
    s.socket k = { handler := createRecvParam connfd recvbuf, entry := none, taken := [],
                   unread := [], hungUp := false }
  registered : s.registered = []
  ready : s.ready = []
  thread : s.thread = .wait
  posted : s.posted = []

/-- A message whose frame fits the room in front of the receive offset. -/
abbrev Request := { m : Message // m.frame.length ≤ 2000 }

/-- The frames of the requests, one behind the other. -/
def requestFrames (requests : List Request) : List UInt8 :=
  (requests.map fun r => r.1.frame).flatten

/-- Whole requests and the beginning of one more. -/
structure Cut (requests : List Request) (tail xs : List UInt8) : Prop where
  unfinished : ∃ last : Request, tail <+: last.1.frame ∧ tail ≠ last.1.frame
  stream : xs = requestFrames requests ++ tail

/-- Whole requests, and then the beginning of one. -/
def Sendable (xs : List UInt8) : Prop := ∃ requests tail, Cut requests tail xs

/-- One read stays inside `recvbuf`. -/
def Fits (xs : List UInt8) : Prop := (xs.length : Int) ≤ bufferSize - recvOffset

/-- What the calls of the requests do. -/
def effects (requests : List Request) : List Effect :=
  requests.flatMap fun r => callEffects r.1.call

/-- The state of a connection after the bytes `xs`: what is left over lies in front of
the receive offset, and nothing outside `recvbuf` has changed. -/
structure Received (initial : Nat → GReceivePara) (k : Nat) (g : GReceivePara)
    (xs : List UInt8) (out : List Effect) : Prop where
  kept : HoldsRemainder g.moreData g.recvbuf (frameDecoder.drain xs).2
  out : out = (frameDecoder.drain xs).1.flatMap fun m => callEffects m.call
  inside : ∀ i, i < 0 ∨ bufferSize ≤ i → g.recvbuf i = (initial k).recvbuf i

variable {myNtohl : (Nat → UInt8) → BitVec 32} {requests : List Request} {tail xs ys : List UInt8}

theorem Cut.drain (h : Cut requests tail xs) :
    frameDecoder.drain xs = (requests.map Subtype.val, tail) := by
  obtain ⟨⟨last, hpre, hproper⟩, rfl⟩ := h
  have hmap : requestFrames requests = ((requests.map Subtype.val).map Message.frame).flatten := by
    rw [requestFrames, List.map_map]
    rfl
  rw [hmap, PrefixDecoder.drain_encoded_properPrefix frameDecoder_encodes _ hpre hproper]

theorem Cut.unfinished_drain (h : Cut requests tail xs) :
    Unfinished (frameDecoder.drain xs).2 ∧ (frameDecoder.drain xs).2.length ≤ 2000 := by
  obtain ⟨last, hpre, hproper⟩ := h.unfinished
  rw [h.drain]
  exact ⟨unfinished_of_properPrefix hpre hproper, hpre.length_le.trans last.2⟩

theorem Cut.effects (h : Cut requests tail xs) :
    ((frameDecoder.drain xs).1.flatMap fun m => callEffects m.call) = effects requests := by
  rw [h.drain, EpollInput.effects, List.flatMap_map]

/-- Where the stream is cut, it is cut inside a request. -/
theorem sendable_left (h : Sendable (xs ++ ys)) : Sendable xs := by
  obtain ⟨requests, tail, ⟨last, hpre, hproper⟩, hstream⟩ := h
  obtain ⟨n, last', tail', hpre', hproper', hxs⟩ :=
    @PrefixDecoder.exists_cut_of_isPrefix _ Request (fun r => r.1.frame) requests _ _ _ hpre
      hproper (hstream ▸ List.prefix_append xs ys)
  exact ⟨requests.take n, tail', ⟨last', hpre', hproper'⟩, hxs⟩

theorem sendable_nil : Sendable [] := by
  let m : Message := { type := 0, payload := [], length_int := by decide }
  have hlen : m.frame.length = 8 := frame_length m
  refine ⟨[], [], ⟨⟨m, by omega⟩, List.nil_prefix, ?_⟩, rfl⟩
  intro hnil
  rw [← hnil] at hlen
  cases hlen

section Received

variable (hntohl : ReadsBigEndian myNtohl) {initial : Nat → GReceivePara} {k : Nat}
  {g g' : GReceivePara} {out out' : List Effect}

include hntohl

theorem Received.receive_data (h : Received initial k g xs out) (hne : ys ≠ [])
    (hsent : Sendable (xs ++ ys)) (hfits : Fits ys) :
    ∃ fuel g' calls, receive myNtohl fuel g (.data ys hne) = some (g', calls) ∧
      Received initial k g' (xs ++ ys) (out ++ calls.flatMap callEffects) := by
  obtain ⟨hkept, hout, hinside⟩ := h
  obtain ⟨requests, tail, hcut⟩ := hsent
  obtain ⟨earlier, carried, hearlier⟩ := sendable_left ⟨requests, tail, hcut⟩
  obtain ⟨hwait, hshort⟩ := hcut.unfinished_drain
  have hcarried := hearlier.unfinished_drain.2
  have hdrain := frameDecoder.drain_append xs ys
  have hrest : (frameDecoder.drain ((frameDecoder.drain xs).2 ++ ys)).2 =
      (frameDecoder.drain (xs ++ ys)).2 := by rw [hdrain]
  simp only [Fits, bufferSize, recvOffset] at hfits
  obtain ⟨fuel, g', hrun, hholds, hframe⟩ := receive_drains hntohl hne hkept
    (by rw [List.length_append]; omega) (by rw [hrest]; exact hwait)
  rw [hrest] at hholds hframe
  refine ⟨fuel, g', _, hrun, hholds, ?_, ?_⟩
  · rw [hdrain, hout, List.flatMap_append, List.flatMap_map]
  · intro i hi
    simp only [bufferSize, recvOffset] at hi hframe
    rw [hframe i (by omega)]
    exact hinside i (by simpa only [bufferSize] using hi)

end Received

theorem receive_working {fuel : Nat} {g g' : GReceivePara} {ys : List UInt8} {hne : ys ≠ []}
    {calls : List FrameCall} (h : receive myNtohl fuel g (.data ys hne) = some (g', calls)) :
    g'.working = g.working := by
  simp only [receive, Option.map_eq_some_iff, Prod.mk.injEq] at h
  obtain ⟨e, -, rfl, -⟩ := h
  rfl

theorem receive_connfd {fuel : Nat} {g g' : GReceivePara} {r : RecvResult}
    {calls : List FrameCall} (h : receive myNtohl fuel g r = some (g', calls)) :
    g'.connfd = g.connfd := by
  cases r with
  | data bytes hne =>
      simp only [receive, Option.map_eq_some_iff, Prod.mk.injEq] at h
      obtain ⟨e, -, rfl, -⟩ := h
      rfl
  | again | error | closed =>
      simp only [receive, Option.some.injEq, Prod.mk.injEq] at h
      rw [← h.1]

theorem receive_unique {fuel fuel' : Nat} {g : GReceivePara} {r : RecvResult}
    {a b : GReceivePara × List FrameCall} (ha : receive myNtohl fuel g r = some a)
    (hb : receive myNtohl fuel' g r = some b) : a = b := by
  have ha' := receive_mono ha fuel'
  have hb' := receive_mono hb fuel
  rw [Nat.add_comm, hb', Option.some.injEq] at ha'
  exact ha'.symm

theorem processRecvEvent_sound (hntohl : ReadsBigEndian myNtohl) (initial : Nat → GReceivePara) :
    (processRecvEvent myNtohl).Sound (Received initial) Sendable Fits where
  start h := ⟨⟨h.kept, h.out, h.inside⟩, rfl⟩
  data := by
    intro k g xs out ys hne g' out' h hreading hsent hfits htake
    obtain ⟨fuel, calls, hrun, rfl⟩ := htake
    obtain ⟨fuel', g'', calls', hrun', hreceived⟩ := h.receive_data hntohl hne hsent hfits
    obtain ⟨rfl, rfl⟩ := Prod.mk.inj (receive_unique hrun hrun')
    refine ⟨hreceived, ?_⟩
    change mode g' = .reading
    rw [mode, receive_working hrun]
    exact hreading
  again := by
    rintro k g xs out g' out' h ⟨fuel, calls, hrun, rfl⟩
    simp only [recvResult, receive, Option.some.injEq, Prod.mk.injEq] at hrun
    obtain ⟨rfl, rfl⟩ := hrun
    exact ⟨⟨h.kept, h.out, h.inside⟩, rfl, rfl⟩
  ended := by
    rintro k g xs out input g' out' hinput h ⟨fuel, calls, hrun, rfl⟩
    obtain ⟨rfl, rfl⟩ : { g with working := .socketClose } = g' ∧ [] = calls := by
      rcases hinput with rfl | rfl
      · simpa [recvResult, receive] using hrun
      · simpa [recvResult, receive] using hrun
    exact ⟨⟨h.kept, h.out, h.inside⟩, rfl, rfl⟩
  takes_data := by
    intro k g xs out ys hne h _ hsent hfits
    obtain ⟨fuel, g', calls, hrun, -⟩ := h.receive_data hntohl hne hsent hfits
    exact ⟨g', _, fuel, calls, hrun, rfl⟩
  takes_again g := ⟨_, _, 0, _, rfl, rfl⟩
  takes_closed g := ⟨_, _, 0, _, rfl, rfl⟩
  admissible_left := sendable_left
  fits_one x := by
    change (1 : Int) ≤ 38960
    decide

variable {s₀ s t : Epoll} {trs trs' : List (Transition Epoll (Label Nat UInt8))}

theorem Started.inv (hs : Started s₀) :
    Inv (processRecvEvent myNtohl) (Received fun k => (s₀.socket k).handler) Sendable s₀ := by
  have hnone : ∀ k, s₀.postsOf k = [] := by
    intro k
    simp [State.postsOf, hs.posted]
  constructor
  · simp [hs.ready]
  · simp [hs.thread, inHand]
  · simp [hs.registered]
  · exact fun k _ => hnone k
  · intro k
    obtain ⟨connfd, recvbuf, hk⟩ := hs.connections k
    rw [hk]
    exact sendable_nil
  · intro k
    obtain ⟨connfd, recvbuf, hk⟩ := hs.connections k
    refine ⟨[], 0, ?_, ?_, ?_, ?_⟩
    · simp [hnone, hk]
    · have hdrain : frameDecoder.drain [] = ([], []) := frameDecoder.drain_of_none rfl
      constructor
      · simp only [hk, hdrain]
        exact holdsRemainder_nil recvbuf
      · simp only [hk, hdrain, List.flatMap_nil]
      · exact fun _ _ => rfl
    · simp [Shutting, hs.thread]
    · simp [hs.registered]
  · simp [hs.thread]

/-- What the thread has posted about a connection, at any time: that it is there, then,
in order and once each, what the requests demand whose last byte has been read, and at
the end that it is gone, which is not said before the peer has hung up and all that it
sent is read. -/
theorem posts_in_order (hntohl : ReadsBigEndian myNtohl) (hs : Started s₀)
    (hrun : Run (Step (processRecvEvent myNtohl) MAX_EVENTS) s₀ trs s)
    (hguard : ∀ tr ∈ trs, Guard Sendable Fits tr.before tr.label) (k : Nat) :
    ∃ requests n,
      s.postsOf k = (s.socket k).entry.elim [] (processRecvEvent myNtohl).opening ++
        effects requests ++ List.replicate n (processRecvEvent myNtohl).closing ∧
      (∃ tail, Cut requests tail (s.socket k).taken) ∧
      (0 < n → (s.socket k).Ended) ∧
      ∀ i, i < 0 ∨ bufferSize ≤ i →
        (s.socket k).handler.recvbuf i = (s₀.socket k).handler.recvbuf i := by
  have hi := Run.inv (processRecvEvent_sound hntohl fun k => (s₀.socket k).handler) hrun hguard
    hs.inv
  obtain ⟨out, n, ha⟩ := hi.account k
  obtain ⟨requests, tail, hcut⟩ := sendable_left (hi.arrived k)
  refine ⟨requests, n, ?_, ⟨tail, hcut⟩, fun hn => ha.ended (.inl hn), ha.holds.inside⟩
  rw [ha.posts, ha.holds.out, hcut.effects]

/-- Nobody has connected yet; `malloc` returns zeros. -/
def startState : Epoll where
  socket _ := { handler := createRecvParam 7 fun _ => 0, entry := none, taken := [],
                unread := [], hungUp := false }
  registered := []
  ready := []
  thread := .wait
  posted := []

theorem startState_started : Started startState := ⟨fun _ => ⟨_, _, rfl⟩, rfl, rfl, rfl, rfl⟩

/-- An RSSI request, without JSON. -/
def rssiRequest : Request :=
  ⟨{ type := FrameType.inquiryRssiRequest.code, payload := [], length_int := by decide }, by decide⟩

theorem rssiRequest_sendable : Sendable rssiRequest.1.frame :=
  ⟨[rssiRequest], [], ⟨rssiRequest, by decide, by decide⟩, by decide⟩

theorem rssiRequest_fits : Fits rssiRequest.1.frame := by
  change ((8 : Nat) : Int) ≤ 38960
  decide

/-- A peer that has sent its request before it is accepted; the thread reads the request
and then, left to itself, sees that no more is there. -/
theorem rssiRequest_runs : ∃ trs s trs' t,
    Run (fun a l b => Step (processRecvEvent readNetworkWord) MAX_EVENTS a l b ∧
      Guard Sendable Fits a l) startState trs s ∧
    Run (fun a l b => Step (processRecvEvent readNetworkWord) MAX_EVENTS a l b ∧
      Quiet l ∧ Guard Sendable Fits a l) s trs' t := by
  apply Exists.intro
  apply Exists.intro
  apply Exists.intro
  apply Exists.intro
  constructor
  · exact
      .cons (e := Label.arrive 0 rssiRequest.1.frame) ⟨.arrive rfl, rssiRequest_sendable⟩ <|
      .cons (e := Label.wait [.opener .accepted])
        ⟨.wait (n := 0) rfl (by simp) (by decide) rfl, trivial⟩ <|
      .cons (e := Label.enroll 0) ⟨.enroll rfl rfl, trivial⟩ <|
      .cons (e := Label.finish) ⟨.finish rfl, trivial⟩ <|
      .cons (e := Label.wait [.input 0])
        ⟨.wait (n := 1) rfl (by simp) (by decide) rfl, trivial⟩ <|
      .cons (e := Label.start) ⟨.start rfl, trivial⟩ <|
      .cons (e := Label.recv (.data rssiRequest.1.frame (by decide)))
        ⟨.recv rfl rfl ⟨[], rfl⟩ ⟨2, _, rfl, rfl⟩, rssiRequest_fits⟩ <|
      .nil _
  · exact
      .cons (e := Label.recv .again)
        ⟨.recv rfl rfl ⟨rfl, rfl⟩ ⟨0, _, rfl, rfl⟩, trivial, trivial⟩ <|
      .cons (e := Label.leave) ⟨.leave rfl (by decide), trivial, trivial⟩ <|
      .cons (e := Label.finish) ⟨.finish rfl, trivial, trivial⟩ <|
      .nil _

theorem posts_in_order_rssi : ∃ trs s,
    Run (Step (processRecvEvent readNetworkWord) MAX_EVENTS) startState trs s ∧
    ∃ requests n,
      s.postsOf 0 = (s.socket 0).entry.elim [] (processRecvEvent readNetworkWord).opening ++
        effects requests ++ List.replicate n (processRecvEvent readNetworkWord).closing ∧
      (∃ tail, Cut requests tail (s.socket 0).taken) ∧
      (0 < n → (s.socket 0).Ended) ∧
      ∀ i, i < 0 ∨ bufferSize ≤ i →
        (s.socket 0).handler.recvbuf i = (startState.socket 0).handler.recvbuf i := by
  obtain ⟨trs, s, -, -, hruns, -⟩ := rssiRequest_runs
  obtain ⟨hrun, hguard⟩ := Run.of_guarded hruns
  exact ⟨trs, s, hrun,
    posts_in_order readNetworkWord_readsBigEndian startState_started hrun hguard 0⟩

end GwWeb.EpollInput
