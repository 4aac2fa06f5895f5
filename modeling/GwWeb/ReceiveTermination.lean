import GwWeb.Receive

/-!
When the deframing loop of `receive` ends. The length word is compared from
above only, so a word of `-4` or less sends the scan back to bytes it has
already passed.
-/

namespace GwWeb.ReceiveTermination

open ByteMemory
open LoopRules
open GwWeb.Receive

section Network

variable (myNtohl : (Nat → UInt8) → BitVec 32) (recvbuf : Memory)

/-- The length that `receive` reads at `p`. -/
def lengthWord (p : Int) : Int := (wordAt myNtohl recvbuf p).toInt

theorem lengthWord_bounds (p : Int) :
    -2147483648 ≤ lengthWord myNtohl recvbuf p ∧ lengthWord myNtohl recvbuf p < 2147483648 :=
  ⟨BitVec.le_toInt _, BitVec.toInt_lt⟩

theorem receiveBody_rest {s : Scan}
    (h : s.totalByte ≤ 4 ∨
      s.totalByte < int32 (lengthWord myNtohl recvbuf s.pStart + 4)) :
    receiveBody myNtohl recvbuf s = .inr (keepRemainder recvbuf s) := by
  unfold receiveBody
  rcases h with hshort | hlong
  · exact if_pos hshort
  · split
    · rfl
    · exact if_pos hlong

theorem receiveBody_message {s : Scan} (hshort : 4 < s.totalByte)
    (hlong : int32 (lengthWord myNtohl recvbuf s.pStart + 4) ≤ s.totalByte) :
    receiveBody myNtohl recvbuf s =
      let next := nextScan myNtohl recvbuf s (lengthWord myNtohl recvbuf s.pStart)
      if next.totalByte = 0 then
        .inr { moreData := 0, recvbuf, calls := next.calls }
      else .inl next := by
  unfold receiveBody
  rw [if_neg (by simpa [minHeaderLen] using hshort)]
  exact if_neg (by simpa [minHeaderLen, lengthWord] using hlong)

/-- A length word met on the way through the received bytes: its position, its
value, and the number of bytes from it to the end. -/
structure Announced where
  pos : Int
  word : Int
  left : Int

/-- The length words of the `left` bytes from `p` on, frame by frame, up to the
first one that does not announce a frame within these bytes. -/
def announced (p left : Int) : List Announced :=
  if _h : 4 < left then
    if _hw : -4 < lengthWord myNtohl recvbuf p ∧ lengthWord myNtohl recvbuf p + 4 ≤ left then
      ⟨p, lengthWord myNtohl recvbuf p, left⟩ ::
        announced (p + lengthWord myNtohl recvbuf p + 4)
          (left - (lengthWord myNtohl recvbuf p + 4))
    else [⟨p, lengthWord myNtohl recvbuf p, left⟩]
  else []
termination_by left.toNat
decreasing_by omega

/-- The words the loop gets past: those above `-4`, and those so negative that
the 32-bit subtraction wraps round. -/
def Announced.Passed (x : Announced) : Prop := -4 < x.word ∨ x.word + 4 ≤ x.left - 2147483648

instance (x : Announced) : Decidable x.Passed := inferInstanceAs (Decidable (_ ∨ _))

theorem nextScan_totalByte (s : Scan) (msgLen : Int) :
    (nextScan myNtohl recvbuf s msgLen).totalByte = int32 (s.totalByte - msgLen - 4) := by
  simp only [nextScan, int32, minHeaderLen]
  omega

theorem endsDescending_of_negative {s : Scan} (h : s.totalByte ≤ 4) :
    EndsDescending (receiveBody myNtohl recvbuf) Scan.totalByte s :=
  endsDescending_of_break (receiveBody_rest myNtohl recvbuf (.inl h))

section Heads

variable {p left : Int} {calls : List FrameCall}

/-- An incomplete frame: the loop keeps it and stops, or, where `msg_len + 4` wraps,
takes it as whole and has nothing left. -/
theorem endsDescending_incomplete (hleft : left < 2147483648) (hshort : 4 < left)
    (hlow : -4 < lengthWord myNtohl recvbuf p) (hrest : left < lengthWord myNtohl recvbuf p + 4) :
    EndsDescending (receiveBody myNtohl recvbuf) Scan.totalByte ⟨p, left, calls⟩ := by
  set w := lengthWord myNtohl recvbuf p with hw
  have hbounds := lengthWord_bounds myNtohl recvbuf p
  rw [← hw] at hbounds
  rcases Int.lt_or_le (w + 4) 2147483648 with hfits | hwraps
  · have hstop : left < int32 (w + 4) := by
      rw [int32_of_range (by omega) hfits]
      exact hrest
    exact endsDescending_of_break (receiveBody_rest myNtohl recvbuf (.inr hstop))
  · have hbody := receiveBody_message myNtohl recvbuf (s := ⟨p, left, calls⟩) hshort
      (by simp only [← hw]; unfold int32; omega)
    have hbelow : (nextScan myNtohl recvbuf ⟨p, left, calls⟩ w).totalByte < 0 := by
      rw [nextScan_totalByte]
      unfold int32
      simp only
      omega
    have hzero : (nextScan myNtohl recvbuf ⟨p, left, calls⟩ w).totalByte ≠ 0 := by omega
    simp only [← hw, hzero, if_false] at hbody
    rw [endsDescending_continue_iff hbody]
    exact ⟨by simp only; omega, endsDescending_of_negative myNtohl recvbuf (by omega)⟩

/-- A length of `-4` or less: the message is taken as whole, and lowers the count
of bytes only when the subtraction wraps. -/
theorem endsDescending_negative_iff (hleft : left < 2147483648) (hshort : 4 < left)
    (hneg : lengthWord myNtohl recvbuf p ≤ -4) :
    EndsDescending (receiveBody myNtohl recvbuf) Scan.totalByte ⟨p, left, calls⟩ ↔
      lengthWord myNtohl recvbuf p + 4 ≤ left - 2147483648 := by
  set w := lengthWord myNtohl recvbuf p with hw
  have hbounds := lengthWord_bounds myNtohl recvbuf p
  rw [← hw] at hbounds
  have hfit : int32 (w + 4) = w + 4 := int32_of_range (by omega) (by omega)
  have hbody := receiveBody_message myNtohl recvbuf (s := ⟨p, left, calls⟩) hshort
    (by simp only [← hw]; omega)
  have hnext := nextScan_totalByte myNtohl recvbuf ⟨p, left, calls⟩ w
  have hzero : (nextScan myNtohl recvbuf ⟨p, left, calls⟩ w).totalByte ≠ 0 := by
    rw [hnext]
    unfold int32
    simp only
    omega
  simp only [← hw, hzero, if_false] at hbody
  rw [endsDescending_continue_iff hbody]
  constructor
  · rintro ⟨hlt, -⟩
    rw [hnext] at hlt
    unfold int32 at hlt
    simp only at hlt
    omega
  · intro hwraps
    have hbelow : (nextScan myNtohl recvbuf ⟨p, left, calls⟩ w).totalByte < 0 := by
      rw [hnext]
      unfold int32
      simp only
      omega
    exact ⟨by simp only; omega, endsDescending_of_negative myNtohl recvbuf (by omega)⟩

/-- A whole frame: the loop goes on behind it, or ends exactly there. -/
theorem endsDescending_frame_iff (hleft : left < 2147483648) (hshort : 4 < left)
    (hlow : -4 < lengthWord myNtohl recvbuf p) (hle : lengthWord myNtohl recvbuf p + 4 ≤ left) :
    EndsDescending (receiveBody myNtohl recvbuf) Scan.totalByte ⟨p, left, calls⟩ ↔
      left - (lengthWord myNtohl recvbuf p + 4) = 0 ∨
        EndsDescending (receiveBody myNtohl recvbuf) Scan.totalByte
          ⟨p + lengthWord myNtohl recvbuf p + 4, left - (lengthWord myNtohl recvbuf p + 4),
            (nextScan myNtohl recvbuf ⟨p, left, calls⟩ (lengthWord myNtohl recvbuf p)).calls⟩ := by
  set w := lengthWord myNtohl recvbuf p with hw
  have hfit : int32 (w + 4) = w + 4 := int32_of_range (by omega) (by omega)
  have hbody := receiveBody_message myNtohl recvbuf (s := ⟨p, left, calls⟩) hshort
    (by simp only [← hw]; omega)
  have hnext : (nextScan myNtohl recvbuf ⟨p, left, calls⟩ w).totalByte = left - (w + 4) := by
    rw [nextScan_totalByte, int32_of_range (by simp only; omega) (by simp only; omega)]
    simp only
    omega
  rcases eq_or_ne (left - (w + 4)) 0 with hzero | hzero
  · simp only [← hw, hnext, hzero, if_true] at hbody
    simp only [endsDescending_of_break hbody, hzero, true_or]
  · simp only [← hw, hnext, hzero, if_false] at hbody
    have hstate : nextScan myNtohl recvbuf ⟨p, left, calls⟩ w =
        ⟨p + w + 4, left - (w + 4), (nextScan myNtohl recvbuf ⟨p, left, calls⟩ w).calls⟩ := by
      rw [← hnext]
      rfl
    rw [endsDescending_continue_iff hbody, ← hstate, hnext]
    simp only [hzero, false_or, and_iff_right_iff_imp]
    intro _
    omega

end Heads

theorem endsDescending_iff_announced (p left : Int) (hleft : left < 2147483648)
    (calls : List FrameCall) :
    EndsDescending (receiveBody myNtohl recvbuf) Scan.totalByte ⟨p, left, calls⟩ ↔
      ∀ x ∈ announced myNtohl recvbuf p left, x.Passed := by
  induction p, left using announced.induct myNtohl recvbuf generalizing calls with
  | case1 p left hshort hframe ih =>
      rw [announced, dif_pos hshort, dif_pos hframe,
        endsDescending_frame_iff myNtohl recvbuf hleft hshort hframe.1 hframe.2]
      have hhead : (Announced.mk p (lengthWord myNtohl recvbuf p) left).Passed := .inl hframe.1
      simp only [List.forall_mem_cons, hhead, true_and]
      rw [ih (by omega), or_iff_right_of_imp]
      intro hzero
      rw [announced, dif_neg (by omega)]
      simp
  | case2 p left hshort hframe =>
      rw [announced, dif_pos hshort, dif_neg hframe]
      simp only [List.mem_singleton, forall_eq, Announced.Passed]
      rcases Int.lt_or_le (-4) (lengthWord myNtohl recvbuf p) with hlow | hneg
      · have hrest : left < lengthWord myNtohl recvbuf p + 4 := by omega
        simp only [hlow, true_or, iff_true]
        exact endsDescending_incomplete myNtohl recvbuf hleft hshort hlow hrest
      · rw [endsDescending_negative_iff myNtohl recvbuf hleft hshort hneg,
          or_iff_right (Int.not_lt.mpr hneg)]
  | case3 p left hshort =>
      rw [announced, dif_neg hshort]
      simp only [List.not_mem_nil, false_implies, implies_true, iff_true]
      exact endsDescending_of_negative myNtohl recvbuf (by simpa using hshort)

/-- The loop of `receive` ends, with `totalByte` lowered by every iteration that
goes on, exactly when the walk through the carried-over and received bytes
meets no length word from `left - 2^31 - 3` to `-4`. -/
theorem receive_loop_ends_iff (moreData size : Int) :
    EndsDescending (receiveBody myNtohl recvbuf) Scan.totalByte (scanStart moreData size) ↔
      ∀ x ∈ announced myNtohl recvbuf (recvOffset - moreData) (int32 (size + moreData)),
        x.Passed :=
  endsDescending_iff_announced myNtohl recvbuf _ _ (int32_bounds _).2 []

end Network

/-- Five bytes from a client, `ff ff ff fc 00`, announce a length of `-4`:
`receive` never returns from them. -/
theorem receive_hangs_on_minus_four :
    ¬ ∃ fuel out, receive readNetworkWord fuel (createRecvParam 7 fun _ => 0)
      (.data [0xff, 0xff, 0xff, 0xfc, 0] (by decide)) = some out := by
  rintro ⟨fuel, out, hout⟩
  set recvbuf := store (fun _ => 0) recvOffset [0xff, 0xff, 0xff, 0xfc, 0] with hbuf
  have hword : lengthWord readNetworkWord recvbuf 2000 = -4 := by decide
  have hforever : ¬ Terminates (receiveBody readNetworkWord recvbuf) (scanStart 0 5) := by
    apply not_terminates_of_invariant (P := fun s => s.pStart = 2000 ∧ s.totalByte = 5)
    · exact ⟨rfl, rfl⟩
    · rintro ⟨p, left, calls⟩ ⟨rfl, rfl⟩
      refine ⟨nextScan readNetworkWord recvbuf ⟨2000, 5, calls⟩ (-4), ?_, rfl, rfl⟩
      rw [receiveBody_message readNetworkWord recvbuf (by simp) (by simp only [hword]; decide)]
      simp only [hword]
      exact if_neg (by simp [nextScan_totalByte, int32])
  simp only [receive, createRecvParam, ← hbuf, Option.map_eq_some_iff] at hout
  obtain ⟨e, he, -⟩ := hout
  exact hforever ⟨fuel, e, he⟩

end GwWeb.ReceiveTermination
