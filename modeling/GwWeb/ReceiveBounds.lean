import GwWeb.ReceiveTermination
import GwWeb.TransitionRuns

/-!
The indices `receive` uses. The request of `recv` is the whole buffer size
although it writes behind the head room, and what is kept goes in front of the
receive offset whatever its size, so the indices stay inside `recvbuf` only for
reads that fit.
-/

namespace GwWeb.ReceiveBounds

open ByteMemory
open LoopRules
open TransitionRuns
open GwWeb.Receive
open GwWeb.ReceiveTermination

section Network

variable (myNtohl : (Nat → UInt8) → BitVec 32) (recvbuf : Memory)

/-- The scan stops here and keeps its bytes; otherwise it hands a message on. -/
def Keeps (s : Scan) : Prop :=
  s.totalByte ≤ minHeaderLen ∨
    s.totalByte < int32 (lengthWord myNtohl recvbuf s.pStart + minHeaderLen)

/-- No access of the loop of `receive` leaves `recvbuf`. -/
structure ScanInBounds (start : Scan) : Prop where
  position : ∀ s, Visits (receiveBody myNtohl recvbuf) start s →
    0 ≤ s.pStart ∧ s.pStart < bufferSize
  word : ∀ s, Visits (receiveBody myNtohl recvbuf) start s → minHeaderLen < s.totalByte →
    s.pStart + minHeaderLen ≤ bufferSize
  header : ∀ s, Visits (receiveBody myNtohl recvbuf) start s → ¬ Keeps myNtohl recvbuf s →
    s.pStart + frameHeadRoom ≤ bufferSize
  kept : ∀ s, Visits (receiveBody myNtohl recvbuf) start s → Keeps myNtohl recvbuf s →
    0 < s.totalByte → 0 ≤ recvOffset - s.totalByte ∧ s.pStart + s.totalByte ≤ bufferSize ∧
      (recvOffset ≤ s.pStart ∨ s.pStart + s.totalByte ≤ recvOffset - s.totalByte)

/-- The indices of one `receive` call are inside `recvbuf`, and its copy does
not overlap. -/
def ReceiveInBounds (g : GReceivePara) : RecvResult → Prop
  | .data bytes _ =>
      recvOffset + bytes.length ≤ bufferSize ∧
        ScanInBounds myNtohl (store g.recvbuf recvOffset bytes)
          (scanStart g.moreData bytes.length)
  | _ => True

/-- The bytes behind the last whole frame of the `left` bytes from `p` on. -/
def leftover (p left : Int) : Int :=
  if _h : 4 < left then
    if _hw : -4 < lengthWord myNtohl recvbuf p ∧ lengthWord myNtohl recvbuf p + 4 ≤ left then
      leftover (p + lengthWord myNtohl recvbuf p + 4)
        (left - (lengthWord myNtohl recvbuf p + 4))
    else left
  else left
termination_by left.toNat
decreasing_by omega

/-- The bytes of a read, behind those carried over, fit the buffer: there is
room for them; the lengths they announce are no negative frame sizes and do not
overflow; the header of a whole frame is inside; and the unfinished frame at
their end fits the head room and began in this read. -/
structure BytesFit (moreData size : Int) : Prop where
  room : recvOffset + size ≤ bufferSize
  lengths : ∀ x ∈ announced myNtohl recvbuf (recvOffset - moreData) (size + moreData),
    -4 < x.word ∧ x.word + 4 < 2147483648
  header : ∀ x ∈ announced myNtohl recvbuf (recvOffset - moreData) (size + moreData),
    x.word + 4 ≤ x.left → x.pos + frameHeadRoom ≤ bufferSize
  head_room : leftover myNtohl recvbuf (recvOffset - moreData) (size + moreData) ≤ recvOffset
  fresh : leftover myNtohl recvbuf (recvOffset - moreData) (size + moreData) ≤ size

/-- The condition on what one `recv` has returned. -/
def ReadFits (g : GReceivePara) : RecvResult → Prop
  | .data bytes _ =>
      BytesFit myNtohl (store g.recvbuf recvOffset bytes) g.moreData bytes.length
  | _ => True

/-- One call of `receive` that returns. -/
def ReceiveStep (g : GReceivePara) (r : RecvResult) (g' : GReceivePara) : Prop :=
  ∃ fuel calls, receive myNtohl fuel g r = some (g', calls)

/-- Where the scan of `left` bytes from `p` on can be. -/
structure OnTheWay (p left : Int) (s : Scan) : Prop where
  behind : p ≤ s.pStart
  to_end : s.pStart + s.totalByte = p + left
  positive : 0 < s.totalByte
  words : ∀ x ∈ announced myNtohl recvbuf s.pStart s.totalByte, x ∈ announced myNtohl recvbuf p left
  same_rest : leftover myNtohl recvbuf s.pStart s.totalByte = leftover myNtohl recvbuf p left

variable {myNtohl recvbuf}

theorem not_keeps_iff {s : Scan} : ¬ Keeps myNtohl recvbuf s ↔
    4 < s.totalByte ∧ int32 (lengthWord myNtohl recvbuf s.pStart + 4) ≤ s.totalByte := by
  simp only [Keeps, minHeaderLen, not_or, Int.not_le, Int.not_lt]

theorem mem_announced_self {p left : Int} (h : 4 < left) :
    ⟨p, lengthWord myNtohl recvbuf p, left⟩ ∈ announced myNtohl recvbuf p left := by
  rw [announced, dif_pos h]
  split <;> simp

theorem OnTheWay.int32_word {p left : Int} {s : Scan} (hs : OnTheWay myNtohl recvbuf p left s)
    (hlengths : ∀ x ∈ announced myNtohl recvbuf p left, -4 < x.word ∧ x.word + 4 < 2147483648)
    (hshort : 4 < s.totalByte) :
    -4 < lengthWord myNtohl recvbuf s.pStart ∧
      int32 (lengthWord myNtohl recvbuf s.pStart + 4) =
        lengthWord myNtohl recvbuf s.pStart + 4 := by
  obtain ⟨hneg, hwrap⟩ := hlengths _ (hs.words _ (mem_announced_self hshort))
  exact ⟨hneg, int32_of_range (by simp only at hneg; omega) hwrap⟩

theorem OnTheWay.leftover_of_keeps {p left : Int} {s : Scan}
    (hs : OnTheWay myNtohl recvbuf p left s)
    (hlengths : ∀ x ∈ announced myNtohl recvbuf p left, -4 < x.word ∧ x.word + 4 < 2147483648)
    (hkeeps : Keeps myNtohl recvbuf s) : s.totalByte = leftover myNtohl recvbuf p left := by
  rw [← hs.same_rest, leftover]
  split
  · rename_i hshort
    have hword := (hs.int32_word hlengths hshort).2
    have hlong : s.totalByte < lengthWord myNtohl recvbuf s.pStart + 4 := by
      simp only [Keeps, minHeaderLen] at hkeeps
      omega
    rw [dif_neg (by omega)]
  · rfl

theorem OnTheWay.next {p left : Int} (hleft : left < 2147483648)
    (hlengths : ∀ x ∈ announced myNtohl recvbuf p left, -4 < x.word ∧ x.word + 4 < 2147483648)
    {s s' : Scan} (hs : OnTheWay myNtohl recvbuf p left s)
    (hbody : receiveBody myNtohl recvbuf s = .inl s') : OnTheWay myNtohl recvbuf p left s' := by
  obtain ⟨hbehind, hend, hpos, hwords, hrest⟩ := hs
  have hmessage : ¬ Keeps myNtohl recvbuf s := by
    intro hkeeps
    rw [receiveBody_rest myNtohl recvbuf hkeeps] at hbody
    simp at hbody
  obtain ⟨hshort, hlong⟩ := not_keeps_iff.mp hmessage
  obtain ⟨hneg, hword⟩ := OnTheWay.int32_word ⟨hbehind, hend, hpos, hwords, hrest⟩ hlengths hshort
  rw [hword] at hlong
  rw [receiveBody_message myNtohl recvbuf hshort (by rw [hword]; exact hlong)] at hbody
  set w := lengthWord myNtohl recvbuf s.pStart with hw
  have htotal : (nextScan myNtohl recvbuf s w).totalByte = s.totalByte - (w + 4) := by
    rw [nextScan_totalByte, int32_of_range (by omega) (by omega)]
    omega
  have hzero : s.totalByte - (w + 4) ≠ 0 := by
    intro hzero
    simp [htotal, hzero] at hbody
  simp only [htotal, hzero, if_false, Sum.inl.injEq] at hbody
  have hposition : s'.pStart = s.pStart + w + 4 := by
    rw [← hbody]
    rfl
  have hcount : s'.totalByte = s.totalByte - (w + 4) := by rw [← hbody, htotal]
  refine ⟨by omega, by omega, by omega, ?_, ?_⟩
  · intro x hx
    apply hwords
    rw [announced, dif_pos hshort, dif_pos ⟨hneg, hlong⟩, ← hw, ← hposition, ← hcount]
    exact List.mem_cons_of_mem _ hx
  · rw [← hrest, hposition, hcount]
    conv_rhs => rw [leftover, dif_pos hshort, dif_pos ⟨hneg, hlong⟩]

theorem onTheWay_of_visits {moreData size : Int} (hsize : 0 < size) (hmore : 0 ≤ moreData)
    (hroom : moreData ≤ recvOffset) (hfits : BytesFit myNtohl recvbuf moreData size) {s : Scan}
    (hs : Visits (receiveBody myNtohl recvbuf) (scanStart moreData size) s) :
    OnTheWay myNtohl recvbuf (recvOffset - moreData) (size + moreData) s := by
  have hspace := hfits.room
  simp only [recvOffset, bufferSize] at hspace hroom
  refine hs.invariant ?_ fun a b ha hbody => ha.next (by omega) hfits.lengths hbody
  have htotal : int32 (size + moreData) = size + moreData :=
    int32_of_range (by omega) (by omega)
  refine ⟨Int.le_refl _, ?_, ?_, ?_, ?_⟩ <;> simp only [scanStart, htotal]
  · omega
  · exact fun _ => id

theorem scanInBounds_of_fits {moreData size : Int} (hsize : 0 < size) (hmore : 0 ≤ moreData)
    (hroom : moreData ≤ recvOffset) (hfits : BytesFit myNtohl recvbuf moreData size) :
    ScanInBounds myNtohl recvbuf (scanStart moreData size) := by
  have hway := @onTheWay_of_visits myNtohl recvbuf _ _ hsize hmore hroom hfits
  have hspace := hfits.room
  simp only [recvOffset, bufferSize] at hspace hroom
  constructor
  · intro s hs
    obtain ⟨hbehind, hend, hpos, -, -⟩ := hway hs
    simp only [recvOffset, bufferSize] at hbehind hend ⊢
    omega
  · intro s hs hshort
    obtain ⟨hbehind, hend, hpos, -, -⟩ := hway hs
    simp only [recvOffset, bufferSize, minHeaderLen] at hshort hend ⊢
    omega
  · intro s hs hmessage
    obtain ⟨hshort, hlong⟩ := not_keeps_iff.mp hmessage
    rw [((hway hs).int32_word hfits.lengths hshort).2] at hlong
    exact hfits.header _ ((hway hs).words _ (mem_announced_self hshort)) hlong
  · intro s hs hkeeps hpos
    have hrest := (hway hs).leftover_of_keeps hfits.lengths hkeeps
    have hhead := hfits.head_room
    have hfresh := hfits.fresh
    have hend := (hway hs).to_end
    rw [← hrest] at hhead hfresh
    simp only [recvOffset, bufferSize] at hhead hfresh hend ⊢
    omega

theorem receiveStep_moreData {g g' : GReceivePara} {r : RecvResult} (hmore : 0 ≤ g.moreData)
    (hroom : g.moreData ≤ recvOffset) (hfits : ReadFits myNtohl g r)
    (hstep : ReceiveStep myNtohl g r g') : 0 ≤ g'.moreData ∧ g'.moreData ≤ recvOffset := by
  obtain ⟨fuel, calls, hrun⟩ := hstep
  cases r with
  | data bytes hne =>
      have hsize : 0 < (bytes.length : Int) := by
        have := List.length_pos_iff.mpr hne
        omega
      simp only [receive, Option.map_eq_some_iff, Prod.mk.injEq] at hrun
      obtain ⟨e, hloop, rfl, -⟩ := hrun
      obtain ⟨s, hs, hbreak⟩ := exists_visits_of_runLoop hloop
      have hway := onTheWay_of_visits hsize hmore hroom hfits hs
      by_cases hkeeps : Keeps myNtohl (store g.recvbuf recvOffset bytes) s
      · have hrest := hway.leftover_of_keeps hfits.lengths hkeeps
        have hhead := hfits.head_room
        have hpos := hway.positive
        rw [receiveBody_rest myNtohl _ hkeeps, Sum.inr.injEq] at hbreak
        rw [← hbreak]
        simp only [keepRemainder]
        omega
      · obtain ⟨hshort, hlong⟩ := not_keeps_iff.mp hkeeps
        rw [receiveBody_message myNtohl _ hshort hlong] at hbreak
        simp only at hbreak
        split at hbreak
        · rw [Sum.inr.injEq] at hbreak
          rw [← hbreak]
          simp [recvOffset]
        · simp at hbreak
  | again =>
      obtain ⟨rfl, -⟩ : _ = g' ∧ _ := by simpa [receive] using hrun
      exact ⟨hmore, hroom⟩
  | error =>
      obtain ⟨rfl, -⟩ : _ = g' ∧ _ := by simpa [receive] using hrun
      exact ⟨hmore, hroom⟩
  | closed =>
      obtain ⟨rfl, -⟩ : _ = g' ∧ _ := by simpa [receive] using hrun
      exact ⟨hmore, hroom⟩

/-- Over every sequence of `recv` results that fit, `receive` uses only indices
inside `recvbuf` and its copy does not overlap. -/
theorem receive_in_bounds {connfd : Int} {initial : Memory} {g : GReceivePara}
    {trs : List (Transition GReceivePara RecvResult)}
    (hrun : Run (ReceiveStep myNtohl) (createRecvParam connfd initial) trs g)
    (hfits : ∀ tr ∈ trs, ReadFits myNtohl tr.before tr.label) :
    ∀ tr ∈ trs, ReceiveInBounds myNtohl tr.before tr.label := by
  have hkeep : ∀ a r b, (0 ≤ a.moreData ∧ a.moreData ≤ recvOffset) → ReadFits myNtohl a r →
      ReceiveStep myNtohl a r b → 0 ≤ b.moreData ∧ b.moreData ≤ recvOffset :=
    fun a r b ha hr hstep => receiveStep_moreData ha.1 ha.2 hr hstep
  intro tr htr
  obtain ⟨hmore, hroom⟩ :=
    ((hrun.invariant hkeep (by simp [createRecvParam, recvOffset]) hfits).1 tr htr).1
  have hread := hfits tr htr
  rcases tr with ⟨a, r, b⟩
  cases r with
  | data bytes hne =>
      have hsize : 0 < (bytes.length : Int) := by
        have := List.length_pos_iff.mpr hne
        omega
      exact ⟨hread.room, scanInBounds_of_fits hsize hmore hroom hread⟩
  | again => trivial
  | error => trivial
  | closed => trivial

end Network

/-- An RSSI request and the first byte of the next frame fit. -/
theorem receive_in_bounds_frame_and_byte :
    ∃ g, Run (ReceiveStep readNetworkWord) (createRecvParam 7 fun _ => 0)
        [⟨createRecvParam 7 fun _ => 0, .data [0, 0, 0, 4, 0, 0, 0, 41, 0] (by decide), g⟩] g ∧
      ReceiveInBounds readNetworkWord (createRecvParam 7 fun _ => 0)
        (.data [0, 0, 0, 4, 0, 0, 0, 41, 0] (by decide)) := by
  set recvbuf := store (fun _ => 0) recvOffset [0, 0, 0, 4, 0, 0, 0, 41, 0] with hbuf
  have hword : lengthWord readNetworkWord recvbuf 2000 = 4 := by decide
  have hwords : announced readNetworkWord recvbuf 2000 9 = [⟨2000, 4, 9⟩] := by
    rw [announced, dif_pos (by decide), dif_pos (by rw [hword]; decide), hword, announced,
      dif_neg (by decide)]
  have hrest : leftover readNetworkWord recvbuf 2000 9 = 1 := by
    rw [leftover, dif_pos (by decide), dif_pos (by rw [hword]; decide), hword, leftover,
      dif_neg (by decide)]
    rfl
  have hfits : BytesFit readNetworkWord recvbuf 0 9 := by
    refine ⟨by decide, ?_, ?_, ?_, ?_⟩ <;>
      simp [recvOffset, bufferSize, frameHeadRoom, hwords, hrest]
  obtain ⟨g, hstep⟩ : ∃ g, ReceiveStep readNetworkWord (createRecvParam 7 fun _ => 0)
      (.data [0, 0, 0, 4, 0, 0, 0, 41, 0] (by decide)) g := ⟨_, 2, _, rfl⟩
  have hrun := Run.cons hstep (.nil g)
  refine ⟨g, hrun, receive_in_bounds hrun ?_ _ (List.mem_singleton.mpr rfl)⟩
  intro tr htr
  obtain rfl := List.mem_singleton.mp htr
  exact hfits

/-- Two reads of one byte each: the second copies `[1999, 2001)` onto
`[1998, 2000)`. A read as long as `recv` was asked for overruns the buffer. -/
theorem receive_copies_onto_itself :
    (∃ g₁ g₂, Run (ReceiveStep readNetworkWord) (createRecvParam 7 fun _ => 0)
        [⟨createRecvParam 7 fun _ => 0, .data [0] (by decide), g₁⟩,
          ⟨g₁, .data [0] (by decide), g₂⟩] g₂ ∧
      ¬ ReceiveInBounds readNetworkWord g₁ (.data [0] (by decide))) ∧
    ¬ ReceiveInBounds readNetworkWord (createRecvParam 7 fun _ => 0)
      (.data (List.replicate 40960 0)
        (List.ne_nil_of_length_pos (by rw [List.length_replicate]; decide))) := by
  refine ⟨⟨_, _, .cons ⟨1, _, rfl⟩ (.cons ⟨1, _, rfl⟩ (.nil _)), ?_⟩, ?_⟩
  · rintro ⟨-, hscan⟩
    have hkept := hscan.kept _ visits_refl (.inl (by decide)) (by decide)
    revert hkept
    decide
  · rintro ⟨hroom, -⟩
    rw [List.length_replicate] at hroom
    revert hroom
    decide

end GwWeb.ReceiveBounds
