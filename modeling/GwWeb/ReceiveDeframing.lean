import GwWeb.ReceiveTermination
import GwWeb.StreamDecoding

/-!
`receive` undoes `assemble_frame_and_send` however TCP cuts the stream: its
loop drains the frame decoder below, and the bytes kept in front of the receive
offset are the decoder's leftover.
-/

namespace GwWeb.ReceiveDeframing

open ByteMemory
open LoopRules
open StreamDecoding
open GwWeb.Receive
open GwWeb.ReceiveTermination

/-- A message for `assemble_frame_and_send`, whose frame length is an `int`. -/
structure Message where
  type : BitVec 32
  payload : List UInt8
  length_int : payload.length + 8 < 2147483648

def Message.frame (m : Message) : List UInt8 := assembleFrame m.type m.payload

/-- The call that a message is handled by. -/
def Message.call (m : Message) : FrameCall := { type := m.type, jsonfile := m.payload }

/-- The first four bytes as a word. -/
def headWord (xs : List UInt8) : BitVec 32 :=
  networkWord (xs.getD 0 0) (xs.getD 1 0) (xs.getD 2 0) (xs.getD 3 0)

/-- The length that a frame announces. -/
def bodyLength (xs : List UInt8) : Nat := (headWord xs).toNat

theorem headWord_append {xs : List UInt8} (h : 4 ≤ xs.length) (zs : List UInt8) :
    headWord (xs ++ zs) = headWord xs := by
  simp only [headWord, List.getD_eq_getElem?_getD]
  repeat rw [List.getElem?_append_left (by omega)]

theorem headWord_htonl (w : BitVec 32) (xs : List UInt8) : headWord (htonl w ++ xs) = w := by
  have hw := w.isLt
  apply BitVec.eq_of_toNat_eq
  simp only [headWord, htonl, networkWord, List.cons_append, List.nil_append,
    List.getD_cons_zero, List.getD_cons_succ, UInt8.toNat_ofNat', BitVec.toNat_ofNat]
  omega

/-- A whole frame lies at the front, and its length word is one that
`assemble_frame_and_send` writes. -/
def WholeFrame (xs : List UInt8) : Prop :=
  4 ≤ bodyLength xs ∧ bodyLength xs + 4 < 2147483648 ∧ bodyLength xs + 4 ≤ xs.length

instance (xs : List UInt8) : Decidable (WholeFrame xs) := inferInstanceAs (Decidable (_ ∧ _))

/-- The message at the front, and what is behind it. -/
def takeFrame (xs : List UInt8) : Option (Message × List UInt8) :=
  if h : WholeFrame xs then
    some
      ({ type := headWord (xs.drop 4)
         payload := (xs.drop 8).take (bodyLength xs - 4)
         length_int := by
          have := h.2.1
          simp only [List.length_take, List.length_drop]
          omega },
        xs.drop (bodyLength xs + 4))
  else none

theorem takeFrame_eq_some {xs ys : List UInt8} {m : Message}
    (h : takeFrame xs = some (m, ys)) :
    WholeFrame xs ∧ m.type = headWord (xs.drop 4) ∧
      m.payload = (xs.drop 8).take (bodyLength xs - 4) ∧ ys = xs.drop (bodyLength xs + 4) := by
  unfold takeFrame at h
  split at h
  · rename_i hwhole
    simp only [Option.some.injEq, Prod.mk.injEq] at h
    obtain ⟨rfl, rfl⟩ := h
    exact ⟨hwhole, rfl, rfl, rfl⟩
  · simp at h

theorem bodyLength_append {xs : List UInt8} (h : 4 ≤ xs.length) (zs : List UInt8) :
    bodyLength (xs ++ zs) = bodyLength xs := by
  rw [bodyLength, headWord_append h, bodyLength]

theorem takeFrame_append {xs ys : List UInt8} {m : Message} (zs : List UInt8)
    (h : takeFrame xs = some (m, ys)) : takeFrame (xs ++ zs) = some (m, ys ++ zs) := by
  obtain ⟨hwhole, htype, hpayload, rfl⟩ := takeFrame_eq_some h
  obtain ⟨hlo, hint, hlen⟩ := hwhole
  have hshort : 4 ≤ xs.length := by omega
  have hbody := bodyLength_append hshort zs
  have hwhole' : WholeFrame (xs ++ zs) := by
    rw [WholeFrame, hbody, List.length_append]
    omega
  rw [takeFrame, dif_pos hwhole']
  rcases m with ⟨type, payload, hm⟩
  simp only at htype hpayload
  subst htype hpayload
  simp only [hbody, Option.some.injEq, Prod.mk.injEq, Message.mk.injEq]
  refine ⟨⟨?_, ?_⟩, ?_⟩
  · rw [List.drop_append_of_le_length (by omega), headWord_append (by simp; omega)]
  · rw [List.drop_append_of_le_length (by omega),
      List.take_append_of_le_length (by simp; omega)]
  · rw [List.drop_append_of_le_length (by omega)]

/-- The decoder of frames. -/
def frameDecoder : PrefixDecoder UInt8 Message where
  next := takeFrame
  next_length := by
    intro xs m ys h
    obtain ⟨⟨hlo, -, hlen⟩, -, -, rfl⟩ := takeFrame_eq_some h
    simp only [List.length_drop]
    omega
  next_append := fun zs h => takeFrame_append zs h

theorem frame_length (m : Message) : m.frame.length = m.payload.length + 8 := by
  simp [Message.frame, assembleFrame, htonl]

theorem bodyLength_frame (m : Message) (zs : List UInt8) :
    bodyLength (m.frame ++ zs) = m.payload.length + 4 := by
  have := m.length_int
  rw [bodyLength, Message.frame, assembleFrame, List.append_assoc, List.append_assoc,
    headWord_htonl, BitVec.toNat_ofNat]
  omega

theorem frameDecoder_encodes : frameDecoder.Encodes Message.frame := by
  intro m zs
  have hbody := bodyLength_frame m zs
  have hlen := frame_length m
  have := m.length_int
  have hwhole : WholeFrame (m.frame ++ zs) := by
    rw [WholeFrame, hbody, List.length_append]
    omega
  change takeFrame (m.frame ++ zs) = some (m, zs)
  rw [takeFrame, dif_pos hwhole]
  rcases m with ⟨type, payload, hint⟩
  simp only [hbody, Option.some.injEq, Prod.mk.injEq, Message.mk.injEq]
  refine ⟨⟨?_, ?_⟩, ?_⟩
  · simp only [Message.frame, assembleFrame, List.append_assoc]
    rw [List.drop_left' (by simp [htonl]), headWord_htonl]
  · simp only [Message.frame, assembleFrame, List.append_assoc]
    rw [← List.append_assoc, List.drop_left' (by simp [htonl]), Nat.add_sub_cancel,
      List.take_left]
  · rw [List.drop_left' hlen]

/-- An unfinished frame: the loop must wait for more bytes. -/
def Unfinished (xs : List UInt8) : Prop :=
  xs.length ≤ 4 ∨ bodyLength xs + 4 < 2147483648 ∧ xs.length < bodyLength xs + 4

theorem unfinished_of_properPrefix {m : Message} {xs : List UInt8}
    (hpre : xs <+: m.frame) (hproper : xs ≠ m.frame) : Unfinished xs := by
  obtain ⟨zs, hzs⟩ := hpre
  have hlen := congrArg List.length hzs
  rw [List.length_append, frame_length] at hlen
  have hpos : zs.length ≠ 0 := by
    intro hzero
    exact hproper (by simpa [List.eq_nil_of_length_eq_zero hzero] using hzs)
  by_cases hshort : xs.length ≤ 4
  · exact .inl hshort
  · have hbody : bodyLength xs = m.payload.length + 4 := by
      rw [← bodyLength_append (by omega) zs, hzs]
      simpa using bodyLength_frame m []
    have := m.length_int
    exact .inr (by omega)

section Network

variable {myNtohl : (Nat → UInt8) → BitVec 32} (hntohl : ReadsBigEndian myNtohl)

include hntohl

theorem wordAt_eq_headWord (recvbuf : Memory) (p : Int) {n : Nat} (hn : 4 ≤ n) :
    wordAt myNtohl recvbuf p = headWord (bytesAt recvbuf p n) := by
  rw [wordAt, hntohl, headWord]
  repeat rw [bytesAt_getD recvbuf p (by omega)]

theorem lengthWord_eq_bodyLength {recvbuf : Memory} {p : Int} {xs : List UInt8}
    (hxs : bytesAt recvbuf p xs.length = xs) (hlen : 4 ≤ xs.length)
    (hint : bodyLength xs < 2147483648) :
    lengthWord myNtohl recvbuf p = bodyLength xs := by
  rw [lengthWord, wordAt_eq_headWord hntohl recvbuf p hlen, hxs]
  exact BitVec.toInt_eq_toNat_of_lt (by rw [bodyLength] at hint; omega)

theorem receiveBody_unfinished {recvbuf : Memory} {p : Int} {xs : List UInt8}
    (calls : List FrameCall) (hxs : bytesAt recvbuf p xs.length = xs) (h : Unfinished xs) :
    receiveBody myNtohl recvbuf ⟨p, xs.length, calls⟩ =
      .inr (keepRemainder recvbuf ⟨p, xs.length, calls⟩) := by
  apply receiveBody_rest
  rcases h with hshort | ⟨hint, hlong⟩
  · exact .inl (by simp only; omega)
  · by_cases hshort : xs.length ≤ 4
    · exact .inl (by simp only; omega)
    · right
      simp only [lengthWord_eq_bodyLength hntohl hxs (by omega) (by omega)]
      rw [int32_of_range (by omega) (by omega)]
      omega

theorem receiveBody_takeFrame {recvbuf : Memory} {p : Int} {xs ys : List UInt8} {m : Message}
    (calls : List FrameCall) (hxs : bytesAt recvbuf p xs.length = xs)
    (hint : xs.length < 2147483648) (h : takeFrame xs = some (m, ys)) :
    bytesAt recvbuf (p + bodyLength xs + 4) ys.length = ys ∧
    receiveBody myNtohl recvbuf ⟨p, xs.length, calls⟩ =
      if ys = [] then .inr { moreData := 0, recvbuf, calls := calls ++ [m.call] }
      else .inl ⟨p + bodyLength xs + 4, ys.length, calls ++ [m.call]⟩ := by
  obtain ⟨⟨hlo, hbody, hlen⟩, htype, hpayload, hys⟩ := takeFrame_eq_some h
  have hword := lengthWord_eq_bodyLength hntohl hxs (by omega) (by omega)
  have hdrop : ∀ k, k ≤ xs.length → bytesAt recvbuf (p + k) (xs.length - k) = xs.drop k := by
    intro k hk
    rw [← bytesAt_drop recvbuf p xs.length k hk, hxs]
  have hyslen : ys.length = xs.length - (bodyLength xs + 4) := by rw [hys, List.length_drop]
  have hrest : bytesAt recvbuf (p + bodyLength xs + 4) ys.length = ys := by
    rw [hyslen, hys, ← hdrop _ hlen]
    congr 1
    push_cast
    omega
  refine ⟨hrest, ?_⟩
  have hcall : processMessageTableDrive myNtohl recvbuf p (bodyLength xs) = m.call := by
    simp only [processMessageTableDrive, Message.call, htype, hpayload, FrameCall.mk.injEq]
    constructor
    · rw [wordAt_eq_headWord hntohl recvbuf _ (n := xs.length - 4) (by omega)]
      exact congrArg headWord (hdrop 4 (by omega))
    · have hcount : ((bodyLength xs : Int) - 4).toNat = bodyLength xs - 4 := by omega
      rw [hcount, ← hdrop 8 (by omega), bytesAt_take _ _ _ _ (by omega)]
      rfl
  rw [receiveBody_message myNtohl recvbuf (by simp only; omega)
    (by simp only [hword]; rw [int32_of_range (by omega) (by omega)]; omega)]
  have htotal : (nextScan myNtohl recvbuf ⟨p, xs.length, calls⟩ (bodyLength xs)).totalByte =
      ys.length := by
    rw [nextScan_totalByte, int32_of_range (by simp only; omega) (by simp only; omega)]
    simp only
    omega
  simp only [hword, htotal]
  rcases eq_or_ne ys [] with hnil | hnil
  · simp [hnil, nextScan, hcall]
  · have hne : ((ys.length : Nat) : Int) ≠ 0 := by
      simpa using hnil
    rw [if_neg hne, if_neg hnil, ← htotal]
    simp only [nextScan, hcall, minHeaderLen]

end Network

/-- The connection holds `rest` in front of the receive offset. -/
def HoldsRemainder (moreData : Int) (recvbuf : Memory) (rest : List UInt8) : Prop :=
  moreData = rest.length ∧ bytesAt recvbuf (recvOffset - rest.length) rest.length = rest

theorem holdsRemainder_nil (recvbuf : Memory) : HoldsRemainder 0 recvbuf [] := ⟨rfl, rfl⟩

theorem keepRemainder_holds {recvbuf : Memory} {p : Int} {xs : List UInt8}
    (calls : List FrameCall) (hxs : bytesAt recvbuf p xs.length = xs) :
    HoldsRemainder xs.length (keepRemainder recvbuf ⟨p, xs.length, calls⟩).recvbuf xs ∧
      ∀ i, i < recvOffset - xs.length ∨ recvOffset ≤ i →
        (keepRemainder recvbuf ⟨p, xs.length, calls⟩).recvbuf i = recvbuf i := by
  simp only [keepRemainder, Int.toNat_natCast]
  by_cases hpos : (0 : Int) < xs.length
  · rw [if_pos hpos]
    refine ⟨⟨rfl, ?_⟩, fun i hi => memmove_outside (by omega)⟩
    rw [bytesAt_memmove, hxs]
  · rw [if_neg hpos]
    have hnil : xs = [] := List.eq_nil_of_length_eq_zero (by omega)
    subst hnil
    exact ⟨holdsRemainder_nil recvbuf, fun _ _ => rfl⟩

section Network

variable {myNtohl : (Nat → UInt8) → BitVec 32} (hntohl : ReadsBigEndian myNtohl)

include hntohl

/-- The loop drains the decoder: it hands on every whole frame of the scanned
bytes and keeps the leftover. -/
theorem runLoop_drains {recvbuf : Memory} (xs : List UInt8) (hint : xs.length < 2147483648)
    (hrest : Unfinished (frameDecoder.drain xs).2) (p : Int) (calls : List FrameCall)
    (hxs : bytesAt recvbuf p xs.length = xs) :
    ∃ fuel e, runLoop (receiveBody myNtohl recvbuf) fuel ⟨p, xs.length, calls⟩ = some e ∧
      e.calls = calls ++ (frameDecoder.drain xs).1.map Message.call ∧
      HoldsRemainder e.moreData e.recvbuf (frameDecoder.drain xs).2 ∧
      ∀ i, i < recvOffset - (frameDecoder.drain xs).2.length ∨ recvOffset ≤ i →
        e.recvbuf i = recvbuf i := by
  induction xs using frameDecoder.drain_induction generalizing p calls with
  | rest xs hnone =>
      rw [frameDecoder.drain_of_none hnone] at hrest ⊢
      have hbody := receiveBody_unfinished hntohl calls hxs hrest
      obtain ⟨hholds, hframe⟩ := keepRemainder_holds calls hxs
      exact ⟨1, _, runLoop_of_break hbody, by simp [keepRemainder], hholds, hframe⟩
  | item xs m ys hsome ih =>
      obtain ⟨hys, hbody⟩ := receiveBody_takeFrame hntohl calls hxs hint hsome
      have hshorter := frameDecoder.next_length hsome
      rw [frameDecoder.drain_of_some hsome] at hrest ⊢
      rcases eq_or_ne ys [] with hnil | hnil
      · have hend : frameDecoder.drain ys = ([], []) := by
          subst hnil
          exact frameDecoder.drain_of_none rfl
        rw [if_pos hnil] at hbody
        simp only [hend]
        exact ⟨1, _, runLoop_of_break hbody, by simp, holdsRemainder_nil recvbuf, fun _ _ => rfl⟩
      · rw [if_neg hnil] at hbody
        obtain ⟨fuel, e, hrun, hcalls, hholds, hframe⟩ :=
          ih (by omega) hrest _ (calls ++ [m.call]) hys
        refine ⟨fuel + 1, e, ?_, ?_, hholds, hframe⟩
        · rw [runLoop_of_continue hbody, hrun]
        · simp [hcalls]

theorem receive_drains {g : GReceivePara} {rest bytes : List UInt8} (hne : bytes ≠ [])
    (hg : HoldsRemainder g.moreData g.recvbuf rest)
    (hint : (rest ++ bytes).length < 2147483648)
    (hrest : Unfinished (frameDecoder.drain (rest ++ bytes)).2) :
    ∃ fuel g', receive myNtohl fuel g (.data bytes hne) =
        some (g', (frameDecoder.drain (rest ++ bytes)).1.map Message.call) ∧
      HoldsRemainder g'.moreData g'.recvbuf (frameDecoder.drain (rest ++ bytes)).2 ∧
      ∀ i, i < recvOffset - (frameDecoder.drain (rest ++ bytes)).2.length ∨
          recvOffset + bytes.length ≤ i → g'.recvbuf i = g.recvbuf i := by
  obtain ⟨hmore, hkept⟩ := hg
  set recvbuf := store g.recvbuf recvOffset bytes with hbuf
  have hwindow : bytesAt recvbuf (recvOffset - rest.length) (rest ++ bytes).length =
      rest ++ bytes := by
    rw [List.length_append, bytesAt_add]
    congr 1
    · rw [hbuf, bytesAt_store_disjoint (by omega), hkept]
    · rw [Int.sub_add_cancel, hbuf, bytesAt_store]
  obtain ⟨fuel, e, hrun, hcalls, hholds, hframe⟩ :=
    runLoop_drains hntohl _ hint hrest _ [] hwindow
  have hstart : scanStart g.moreData bytes.length =
      ⟨recvOffset - rest.length, (rest ++ bytes).length, []⟩ := by
    rw [List.length_append] at hint
    simp only [scanStart, hmore, List.length_append, Scan.mk.injEq, and_true, true_and]
    rw [int32_of_range (by omega) (by omega)]
    push_cast
    omega
  refine ⟨fuel, { g with moreData := e.moreData, recvbuf := e.recvbuf }, ?_, hholds, ?_⟩
  · simp only [receive, ← hbuf, hstart, hrun, Option.map_some, hcalls, List.nil_append]
  · intro i hi
    change e.recvbuf i = g.recvbuf i
    rw [hframe i (by omega), hbuf, store_outside (by omega)]

end Network

theorem receive_mono {myNtohl : (Nat → UInt8) → BitVec 32} {fuel : Nat} {g : GReceivePara}
    {r : RecvResult} {out : GReceivePara × List FrameCall}
    (h : receive myNtohl fuel g r = some out) (extra : Nat) :
    receive myNtohl (fuel + extra) g r = some out := by
  cases r with
  | data bytes hne =>
      simp only [receive, Option.map_eq_some_iff] at h ⊢
      obtain ⟨e, hrun, rfl⟩ := h
      exact ⟨e, runLoop_mono hrun extra, rfl⟩
  | again => exact h
  | error => exact h
  | closed => exact h

theorem receiveAll_mono {myNtohl : (Nat → UInt8) → BitVec 32} {fuel : Nat} {g : GReceivePara}
    {rs : List RecvResult} {out : GReceivePara × List FrameCall}
    (h : receiveAll myNtohl fuel g rs = some out) (extra : Nat) :
    receiveAll myNtohl (fuel + extra) g rs = some out := by
  induction rs generalizing g out with
  | nil => exact h
  | cons r rs ih =>
      simp only [receiveAll, Option.bind_eq_bind, Option.bind_eq_some_iff, Option.pure_def,
        Option.some.injEq, Prod.exists] at h ⊢
      obtain ⟨g', calls, hfirst, g'', later, hlater, rfl⟩ := h
      exact ⟨g', calls, receive_mono hfirst extra, g'', later, ih hlater, rfl⟩

/-- The bytes of one `recv`. -/
abbrev Piece := { bytes : List UInt8 // bytes ≠ [] }

def Piece.recv (piece : Piece) : RecvResult := .data piece.1 piece.2

/-- The stream that the pieces are cut from. -/
def joined (pieces : List Piece) : List UInt8 := (pieces.map Subtype.val).flatten

section Network

variable {myNtohl : (Nat → UInt8) → BitVec 32} (hntohl : ReadsBigEndian myNtohl)

include hntohl

/-- Successive `receive` calls refine feeding the decoder piece by piece. -/
theorem receiveAll_feeds (pieces : List Piece) {g : GReceivePara} {rest : List UInt8}
    (hg : HoldsRemainder g.moreData g.recvbuf rest) (hrest : rest.length ≤ 2000)
    (hsize : ∀ piece ∈ pieces, (piece.1.length : Int) ≤ bufferSize - recvOffset)
    (hcut : ∀ i, i < pieces.length →
      Unfinished (frameDecoder.drain (rest ++ joined (pieces.take (i + 1)))).2 ∧
        (frameDecoder.drain (rest ++ joined (pieces.take (i + 1)))).2.length ≤ 2000) :
    ∃ fuel g', receiveAll myNtohl fuel g (pieces.map Piece.recv) =
        some (g', (frameDecoder.feed rest (pieces.map Subtype.val)).1.map Message.call) ∧
      HoldsRemainder g'.moreData g'.recvbuf (frameDecoder.feed rest (pieces.map Subtype.val)).2 ∧
      ∀ i, i < 0 ∨ bufferSize ≤ i → g'.recvbuf i = g.recvbuf i := by
  induction pieces generalizing g rest with
  | nil => exact ⟨0, g, rfl, hg, fun _ _ => rfl⟩
  | cons piece pieces ih =>
      have hroom := hsize piece (by simp)
      simp only [bufferSize, recvOffset] at hroom
      obtain ⟨hwait, hshort⟩ := hcut 0 (by simp)
      simp only [joined, List.take_succ_cons, List.take_zero, List.map_cons, List.map_nil,
        List.flatten_cons, List.flatten_nil, List.append_nil] at hwait hshort
      obtain ⟨fuel₁, g₁, hfirst, hholds₁, hframe₁⟩ :=
        receive_drains hntohl piece.2 hg (by rw [List.length_append]; omega) hwait
      have hcut' : ∀ i, i < pieces.length →
          Unfinished (frameDecoder.drain ((frameDecoder.drain (rest ++ piece.1)).2 ++
              joined (pieces.take (i + 1)))).2 ∧
            (frameDecoder.drain ((frameDecoder.drain (rest ++ piece.1)).2 ++
              joined (pieces.take (i + 1)))).2.length ≤ 2000 := by
        intro i hi
        have h := hcut (i + 1) (by simpa using hi)
        rw [List.take_succ_cons, joined, List.map_cons, List.flatten_cons, ← List.append_assoc,
          frameDecoder.drain_append] at h
        exact h
      obtain ⟨fuel₂, g₂, hlater, hholds₂, hframe₂⟩ :=
        ih hholds₁ hshort (fun p hp => hsize p (by simp [hp])) hcut'
      refine ⟨fuel₁ + fuel₂, g₂, ?_, hholds₂, ?_⟩
      · have hfirst' := receive_mono hfirst fuel₂
        have hlater' := receiveAll_mono hlater fuel₁
        rw [Nat.add_comm] at hlater'
        simp only [List.map_cons, receiveAll, Piece.recv, hfirst', Option.bind_eq_bind,
          Option.bind_some]
        rw [hlater']
        simp [PrefixDecoder.feed]
      · intro i hi
        rw [hframe₂ i hi]
        simp only [bufferSize, recvOffset] at hi hframe₁
        exact hframe₁ i (by omega)

end Network

/-- The stream in front of message `k`. -/
def framesUpTo (messages : List Message) (k : Nat) : List UInt8 :=
  ((messages.take k).map Message.frame).flatten

/-- At every cut, at most 2000 bytes lie behind the last frame boundary. -/
def CarryBounded (messages : List Message) (pieces : List Piece) : Prop :=
  ∀ i ≤ pieces.length, ∃ k ≤ messages.length,
    (framesUpTo messages k).length ≤ (joined (pieces.take i)).length ∧
      (joined (pieces.take i)).length ≤ (framesUpTo messages k).length + 2000

theorem framesUpTo_isPrefix (messages : List Message) (k : Nat) (tail : List UInt8) :
    framesUpTo messages k <+: (messages.map Message.frame).flatten ++ tail := by
  refine ⟨((messages.drop k).map Message.frame).flatten ++ tail, ?_⟩
  rw [framesUpTo, ← List.append_assoc, ← List.flatten_append, ← List.map_append,
    List.take_append_drop]

theorem joined_take_isPrefix (pieces : List Piece) (i : Nat) :
    joined (pieces.take i) <+: joined pieces := by
  refine ⟨joined (pieces.drop i), ?_⟩
  rw [joined, joined, joined, ← List.flatten_append, ← List.map_append, List.take_append_drop]

theorem carried_at_cut {messages : List Message} {last : Message} {tail : List UInt8}
    {pieces : List Piece} (hpre : tail <+: last.frame) (hproper : tail ≠ last.frame)
    (hstream : joined pieces = (messages.map Message.frame).flatten ++ tail)
    (hcarry : CarryBounded messages pieces) {i : Nat} (hi : i ≤ pieces.length) :
    Unfinished (frameDecoder.drain (joined (pieces.take i))).2 ∧
      (frameDecoder.drain (joined (pieces.take i))).2.length ≤ 2000 := by
  have hcut := joined_take_isPrefix pieces i
  rw [hstream] at hcut
  constructor
  · obtain ⟨k, m, zs, hzs, hne, heq⟩ :=
      PrefixDecoder.exists_cut_of_isPrefix messages hpre hproper hcut
    rw [heq, PrefixDecoder.drain_encoded_properPrefix frameDecoder_encodes _ hzs hne]
    exact unfinished_of_properPrefix hzs hne
  · obtain ⟨k, -, hlo, hhi⟩ := hcarry i hi
    obtain ⟨zs, hzs⟩ := List.prefix_of_prefix_length_le
      (framesUpTo_isPrefix messages k tail) hcut hlo
    rw [← hzs, List.length_append] at hhi
    have hshort := frameDecoder.drain_rest_length zs
    rw [← hzs, framesUpTo, PrefixDecoder.drain_encoded frameDecoder_encodes]
    exact hshort.trans (by omega)

/-- Deframing does not depend on how TCP splits the stream. Whatever `recvbuf`
held before, the calls to `processMessage_table_drive` carry exactly the
messages sent, in order; the unfinished frame at the end is kept in front of
`recvbuf + 2000`; and no byte outside the buffer is written. -/
theorem receive_deframes {myNtohl : (Nat → UInt8) → BitVec 32}
    (hntohl : ReadsBigEndian myNtohl) (messages : List Message) (last : Message)
    (tail : List UInt8) (hpre : tail <+: last.frame) (hproper : tail ≠ last.frame)
    (pieces : List Piece)
    (hstream : joined pieces = (messages.map Message.frame).flatten ++ tail)
    (hsize : ∀ piece ∈ pieces, (piece.1.length : Int) ≤ bufferSize - recvOffset)
    (hcarry : CarryBounded messages pieces) (connfd : Int) (recvbuf : Memory) :
    ∃ fuel g, receiveAll myNtohl fuel (createRecvParam connfd recvbuf)
        (pieces.map Piece.recv) = some (g, messages.map Message.call) ∧
      g.moreData = tail.length ∧
      bytesAt g.recvbuf (recvOffset - g.moreData) tail.length = tail ∧
      ∀ i, i < 0 ∨ bufferSize ≤ i → g.recvbuf i = recvbuf i := by
  have hcut : ∀ i, i < pieces.length →
      Unfinished (frameDecoder.drain ([] ++ joined (pieces.take (i + 1)))).2 ∧
        (frameDecoder.drain ([] ++ joined (pieces.take (i + 1)))).2.length ≤ 2000 :=
    fun i hi => carried_at_cut hpre hproper hstream hcarry (by omega)
  obtain ⟨fuel, g, hrun, ⟨hmore, hkept⟩, hframe⟩ :=
    receiveAll_feeds hntohl pieces (g := createRecvParam connfd recvbuf)
      (holdsRemainder_nil recvbuf) (by simp) hsize hcut
  have hfeed : frameDecoder.feed [] (pieces.map Subtype.val) = (messages, tail) := by
    rw [frameDecoder.feed_eq_drain [] _ rfl, List.nil_append]
    change frameDecoder.drain (joined pieces) = _
    rw [hstream, PrefixDecoder.drain_encoded_properPrefix frameDecoder_encodes _ hpre hproper]
  simp only [hfeed] at hrun hmore hkept
  exact ⟨fuel, g, hrun, hmore, by rw [hmore]; exact hkept, hframe⟩

/-- A request with payload `{}`, cut inside its length word and its type word,
then three bytes of the length word of a second request. -/
theorem receive_deframes_four_pieces :
    ∃ fuel g, receiveAll readNetworkWord fuel (createRecvParam 7 fun _ => 0)
        ([⟨[0, 0], by decide⟩, ⟨[0, 6, 0, 0, 0], by decide⟩,
          ⟨[1, 0x7b, 0x7d, 0], by decide⟩, ⟨[0, 0], by decide⟩].map Piece.recv) =
          some (g, [{ type := 1, jsonfile := [0x7b, 0x7d] }]) ∧
      g.moreData = 3 ∧ bytesAt g.recvbuf (recvOffset - g.moreData) 3 = [0, 0, 0] ∧
      ∀ i, i < 0 ∨ bufferSize ≤ i → g.recvbuf i = 0 :=
  receive_deframes readNetworkWord_readsBigEndian
    [{ type := 1, payload := [0x7b, 0x7d], length_int := by decide }]
    { type := 41, payload := [], length_int := by decide } [0, 0, 0]
    ⟨[4, 0, 0, 0, 41], by decide⟩ (by decide)
    [⟨[0, 0], by decide⟩, ⟨[0, 6, 0, 0, 0], by decide⟩, ⟨[1, 0x7b, 0x7d, 0], by decide⟩,
      ⟨[0, 0], by decide⟩]
    (by decide) (by decide)
    (fun i _ => ⟨0, by simp, by simp [framesUpTo],
      (joined_take_isPrefix _ i).length_le.trans (by decide)⟩)
    7 (fun _ => 0)

end GwWeb.ReceiveDeframing
