import GwWeb.Md5Rounds

/-!
`get_md5sum` digests what a file holds as RFC 1321 says, however `fread` cuts it.
What the context stands for is the chain over the blocks that it has taken in,
and the bytes still in its buffer.
-/

namespace GwWeb.Md5sum

open BlockChaining

namespace Rfc1321

/-- The values that the RFC begins with. -/
def initial : Registers :=
  { A := 0x67452301, B := 0xefcdab89, C := 0x98badcfe, D := 0x10325476 }

/-- The low 64 bits of a number, the lowest byte first. -/
def lengthBytes (n : Nat) : List UInt8 := (List.range 8).map fun i => UInt8.ofNat (n / 256 ^ i)

/-- A one bit, zeroes up to 56 bytes of a block, and the number of bits. -/
def padding (length : Nat) : List UInt8 :=
  0x80 :: (List.replicate ((119 - length % 64) % 64) 0 ++ lengthBytes (8 * length))

/-- The digest of a message, as RFC 1321 has it. -/
noncomputable def md5 (message : List UInt8) : List UInt8 :=
  let r := (absorb (Nat.zero_lt_succ 63) (compress T) initial
    (message ++ padding message.length)).1
  wordBytes r.A ++ wordBytes r.B ++ wordBytes r.C ++ wordBytes r.D

end Rfc1321

/-- `transform` and `nblocks` together. -/
def countedTransform (s : Registers × BitVec 32) (block : List UInt8) : Registers × BitVec 32 :=
  (transform s.1 block, s.2 + 1)

namespace Md5Context

/-- The bytes in the buffer. -/
def pending (hd : Md5Context) : List UInt8 := hd.buf.toList.take hd.count

/-- The chain and the number of blocks behind `xs` too. -/
def absorbed (hd : Md5Context) (xs : List UInt8) : (Registers × BitVec 32) × List UInt8 :=
  absorb (Nat.zero_lt_succ 63) countedTransform (hd.registers, hd.nblocks) (hd.pending ++ xs)

theorem pending_length (hd : Md5Context) : hd.pending.length = hd.count := by
  have := hd.count_le
  simp only [pending, List.length_take, Vector.length_toList]
  omega

theorem pending_put (hd : Md5Context) (x : UInt8) (h : hd.count < 64) :
    (hd.put x h).pending = hd.pending ++ [x] := by
  have hlength : hd.count < hd.buf.toList.length := by simpa using h
  simp only [pending, put, Vector.toList_set]
  rw [List.take_add_one, List.take_set_of_le (Nat.le_refl _), List.getElem?_set_self hlength]
  rfl

theorem pending_of_count (hd : Md5Context) (h : hd.count = 64) : hd.pending = hd.buf.toList := by
  rw [pending, h]
  exact List.take_of_length_le (by simp)

@[simp] theorem pending_compress (hd : Md5Context) (data : List UInt8) :
    (hd.compress data).pending = [] := rfl

theorem absorbed_compress (hd : Md5Context) {data : List UInt8} (hdata : data.length = 64)
    (xs : List UInt8) (hempty : hd.pending = []) :
    (hd.compress data).absorbed xs = hd.absorbed (data ++ xs) := by
  unfold absorbed
  rw [hempty, pending_compress, List.nil_append, List.nil_append, absorb_block hdata]
  rfl

theorem absorbed_flush (hd : Md5Context) (xs : List UInt8) :
    (md5Flush hd).absorbed xs = hd.absorbed xs := by
  unfold md5Flush
  split
  · rename_i hcount
    unfold absorbed
    rw [hd.pending_of_count hcount, pending_compress, List.nil_append,
      absorb_block (by simp)]
    rfl
  · rfl

theorem absorbed_put (hd : Md5Context) (x : UInt8) (h : hd.count < 64) (xs : List UInt8) :
    (hd.put x h).absorbed xs = hd.absorbed (x :: xs) := by
  unfold absorbed
  rw [pending_put, List.append_assoc]
  rfl

theorem absorbed_fill (hd : Md5Context) (inbuf xs : List UInt8) :
    (fill hd inbuf).1.absorbed ((fill hd inbuf).2 ++ xs) = hd.absorbed (inbuf ++ xs) := by
  induction inbuf generalizing hd with
  | nil => rfl
  | cons x inbuf ih =>
      unfold fill
      split
      · rename_i h
        rw [ih, absorbed_put]
        rfl
      · rfl

theorem fill_stops (hd : Md5Context) (inbuf : List UInt8) :
    (fill hd inbuf).2 = [] ∨ (fill hd inbuf).1.count = 64 := by
  induction inbuf generalizing hd with
  | nil => exact .inl rfl
  | cons x inbuf ih =>
      unfold fill
      split
      · exact ih _
      · rename_i h
        exact .inr (Nat.le_antisymm hd.count_le (Nat.le_of_not_lt h))

theorem fill_count (hd : Md5Context) (inbuf : List UInt8) :
    (fill hd inbuf).1.count + (fill hd inbuf).2.length = hd.count + inbuf.length := by
  induction inbuf generalizing hd with
  | nil => rfl
  | cons x inbuf ih =>
      unfold fill
      split
      · rw [ih]
        change hd.count + 1 + inbuf.length = hd.count + (inbuf.length + 1)
        omega
      · rfl

theorem absorbed_wholeBlocks {hd : Md5Context} (rounds : Nat) (inbuf xs : List UInt8)
    (hempty : hd.count = 0) :
    (wholeBlocks rounds hd inbuf).1.absorbed ((wholeBlocks rounds hd inbuf).2 ++ xs) =
        hd.absorbed (inbuf ++ xs) ∧
      (wholeBlocks rounds hd inbuf).1.count = 0 := by
  induction rounds generalizing hd inbuf with
  | zero => exact ⟨rfl, hempty⟩
  | succ rounds ih =>
      unfold wholeBlocks
      split
      · rename_i hlength
        obtain ⟨habsorbed, hcount⟩ := @ih (hd.compress (inbuf.take 64)) (inbuf.drop 64) rfl
        have hpending : hd.pending = [] :=
          List.eq_nil_of_length_eq_zero (hd.pending_length.trans hempty)
        rw [absorbed_compress hd (List.length_take_of_le hlength) _ hpending, ← List.append_assoc,
          List.take_append_drop] at habsorbed
        exact ⟨habsorbed, hcount⟩
      · exact ⟨rfl, hempty⟩

theorem wholeBlocks_rest (hd : Md5Context) (rounds : Nat) (inbuf : List UInt8) :
    (wholeBlocks rounds hd inbuf).2.length < 64 ∨
      (wholeBlocks rounds hd inbuf).2.length + 64 * rounds = inbuf.length := by
  induction rounds generalizing hd inbuf with
  | zero => exact .inr rfl
  | succ rounds ih =>
      unfold wholeBlocks
      split
      · have hrest := ih (hd.compress (inbuf.take 64)) (inbuf.drop 64)
        rw [List.length_drop] at hrest
        omega
      · rename_i hlength
        exact .inl (Nat.lt_of_not_le hlength)

theorem absorbed_writeBlocks {hd : Md5Context} (inbuf xs : List UInt8) (hempty : hd.count = 0) :
    (writeBlocks hd inbuf).absorbed xs = hd.absorbed (inbuf ++ xs) := by
  unfold writeBlocks
  obtain ⟨habsorbed, hcount⟩ := absorbed_wholeBlocks (inbuf.length / 64) inbuf xs hempty
  have hrest := wholeBlocks_rest hd (inbuf.length / 64) inbuf
  have hlt : (wholeBlocks (inbuf.length / 64) hd inbuf).2.length < 64 := by omega
  generalize wholeBlocks (inbuf.length / 64) hd inbuf = left at habsorbed hcount hlt
  -- What is left fits into the empty buffer.
  have htaken : (fill left.1 left.2).2 = [] := by
    rcases fill_stops left.1 left.2 with hnil | hfull
    · exact hnil
    · have hsum := fill_count left.1 left.2
      omega
  have hfill := absorbed_fill left.1 left.2 xs
  rw [htaken, List.nil_append] at hfill
  rw [← habsorbed]
  exact hfill

theorem absorbed_write (hd : Md5Context) (inbuf xs : List UInt8) :
    (md5Write hd inbuf).absorbed xs = hd.absorbed (inbuf ++ xs) := by
  dsimp only [md5Write]
  split
  · rename_i hcount
    rw [absorbed_writeBlocks inbuf xs hcount, absorbed_flush]
  · have hfill := absorbed_fill (md5Flush hd) inbuf xs
    rw [absorbed_flush] at hfill
    split
    · rename_i hnil
      rw [hnil, List.nil_append] at hfill
      rw [absorbed_flush, hfill]
    · rename_i hsome
      have hfull : (fill (md5Flush hd) inbuf).1.count = 64 :=
        (fill_stops (md5Flush hd) inbuf).resolve_left hsome
      have hcount : (md5Flush (fill (md5Flush hd) inbuf).1).count = 0 := by
        unfold md5Flush at hfull ⊢
        rw [if_pos hfull]
        rfl
      rw [absorbed_writeBlocks _ xs hcount, absorbed_flush, hfill]

theorem absorbed_readLoop (hd : Md5Context) (freads : List (List UInt8)) (xs : List UInt8) :
    (readLoop hd freads).absorbed xs =
      hd.absorbed ((freads.takeWhile (· ≠ [])).flatten ++ xs) := by
  induction freads generalizing hd with
  | nil => rfl
  | cons buffer later ih =>
      unfold readLoop
      split
      · rename_i hempty
        simp [hempty]
      · rename_i hsome
        rw [ih, absorbed_write]
        simp [hsome]

theorem absorbed_padTo (limit : Nat) (hlimit : limit ≤ 64) (rounds : Nat) (hd : Md5Context)
    (xs : List UInt8) (hrounds : hd.count + rounds = limit) :
    (padTo limit hlimit rounds hd).count = limit ∧
      (padTo limit hlimit rounds hd).absorbed xs =
        hd.absorbed (List.replicate rounds 0 ++ xs) := by
  induction rounds generalizing hd with
  | zero => exact ⟨hrounds, rfl⟩
  | succ rounds ih =>
      have hlt : hd.count < limit := by omega
      unfold padTo
      rw [dif_pos hlt]
      have hput : (hd.put 0 (hlt.trans_le hlimit)).count + rounds = limit := by
        change hd.count + 1 + rounds = limit
        omega
      obtain ⟨hcount, habsorbed⟩ := ih (hd.put 0 (hlt.trans_le hlimit)) hput
      refine ⟨hcount, ?_⟩
      rw [habsorbed, absorbed_put]
      rfl

theorem take_memsetZero (buf : Vector UInt8 64) {n : Nat} (hn : n ≤ 64) :
    (memsetZero buf n).toList.take n = List.replicate n 0 := by
  apply List.ext_getElem (by simp [hn])
  intro i hi _
  have hlt : i < n := by
    rw [List.length_take] at hi
    omega
  simp [memsetZero, hlt]

theorem absorbed_padLast (hd : Md5Context) (hcount : hd.count < 64) (tail : List UInt8) :
    absorb (Nat.zero_lt_succ 63) countedTransform
        ((padLast hd hcount).registers, (padLast hd hcount).nblocks)
        ((padLast hd hcount).buf.toList.take 56 ++ tail) =
      hd.absorbed (0x80 :: (List.replicate ((119 - hd.count) % 64) 0 ++ tail)) := by
  unfold padLast
  split
  · rename_i hroom
    have hzeros : (119 - hd.count) % 64 = 55 - hd.count := by omega
    obtain ⟨hfull, habsorbed⟩ := absorbed_padTo 56 (by decide) (55 - hd.count)
      (hd.put 0x80 hcount) tail (by change hd.count + 1 + (55 - hd.count) = 56; omega)
    rw [absorbed_put] at habsorbed
    rw [hzeros, ← habsorbed, absorbed, pending, hfull]
  · have hzeros : (119 - hd.count) % 64 = (63 - hd.count) + 56 := by omega
    obtain ⟨hfull, habsorbed⟩ := absorbed_padTo 64 (by decide) (63 - hd.count)
      (hd.put 0x80 hcount) (List.replicate 56 0 ++ tail)
      (by change hd.count + 1 + (63 - hd.count) = 64; omega)
    rw [absorbed_put] at habsorbed
    rw [hzeros, List.replicate_add, List.append_assoc, ← habsorbed, ← absorbed_flush, md5Flush,
      if_pos hfull]
    simp only [take_memsetZero _ (show 56 ≤ 64 by decide)]
    rfl

theorem toList_storeWord (buf : Vector UInt8 64) (i : Nat) (hi : i + 4 ≤ 64) (w : BitVec 32) :
    (storeWord buf i hi w).toList =
      buf.toList.take i ++ wordBytes w ++ buf.toList.drop (i + 4) := by
  have hlength : buf.toList.length = 64 := by simp
  simp only [storeWord, Vector.toList_set]
  generalize buf.toList = l at hlength
  obtain ⟨front, rest, rfl, hfront⟩ : ∃ front rest, l = front ++ rest ∧ front.length = i :=
    ⟨l.take i, l.drop i, (List.take_append_drop i l).symm, List.length_take_of_le (by omega)⟩
  subst hfront
  rw [List.length_append] at hlength
  match rest, hlength with
  | a :: b :: c :: d :: back, _ => simp [wordBytes]
  | [], h => simp at h; omega
  | [_], h => simp at h; omega
  | [_, _], h => simp at h; omega
  | [_, _, _], h => simp at h; omega

theorem take_storeWord (buf : Vector UInt8 64) (i : Nat) (hi : i + 4 ≤ 64) (w : BitVec 32) :
    (storeWord buf i hi w).toList.take (i + 4) = buf.toList.take i ++ wordBytes w := by
  have hlength : (buf.toList.take i ++ wordBytes w).length = i + 4 := by
    simp only [List.length_append, List.length_take, Vector.length_toList, wordBytes,
      List.length_map, List.length_cons, List.length_nil]
    omega
  rw [toList_storeWord, List.take_left' hlength]

end Md5Context

theorem UInt8.ofBitVec_setWidth (w : BitVec 32) :
    UInt8.ofBitVec (w.setWidth 8) = UInt8.ofNat w.toNat := by
  apply UInt8.toNat_inj.mp
  simp

theorem wordBytes_eq (w : BitVec 32) :
    wordBytes w = (List.range 4).map fun i => UInt8.ofNat (w.toNat / 256 ^ i) := by
  have hrange : List.range 4 = [0, 1, 2, 3] := rfl
  simp only [wordBytes, UInt8.ofBitVec_setWidth, hrange, List.map_cons, List.map_nil,
    BitVec.toNat_ushiftRight, Nat.shiftRight_eq_div_pow]
  norm_num

/-- The two words of the count, below `2 ^ 38` bytes: `nblocks` has 32 bits. -/
theorem toNat_bitCount {n : Nat} (hn : n < 2 ^ 38) :
    (bitCount (BitVec.ofNat 32 (n / 64)) (n % 64)).1.toNat = 8 * n % 2 ^ 32 ∧
      (bitCount (BitVec.ofNat 32 (n / 64)) (n % 64)).2.toNat = 8 * n / 2 ^ 32 := by
  have hblocks : (BitVec.ofNat 32 (n / 64)).toNat = n / 64 := by
    rw [BitVec.toNat_ofNat]
    omega
  have hlow : (BitVec.ofNat 32 (n / 64) <<< 6).toNat = n / 64 * 64 % 2 ^ 32 := by
    rw [BitVec.toNat_shiftLeft, hblocks, Nat.shiftLeft_eq]
  have hhigh : (BitVec.ofNat 32 (n / 64) >>> 26).toNat = n / 2 ^ 32 := by
    rw [BitVec.toNat_ushiftRight, hblocks, Nat.shiftRight_eq_div_pow, Nat.div_div_eq_div_mul]
    norm_num
  have hsum : (BitVec.ofNat 32 (n / 64) <<< 6 + BitVec.ofNat 32 (n % 64)).toNat = n % 2 ^ 32 := by
    rw [BitVec.toNat_add, hlow, BitVec.toNat_ofNat]
    omega
  -- The count is below the 64 that the shift left free, so nothing carries.
  have hcarry : ¬ BitVec.ofNat 32 (n / 64) <<< 6 + BitVec.ofNat 32 (n % 64) <
      BitVec.ofNat 32 (n / 64) <<< 6 := by
    rw [BitVec.lt_def, hsum, hlow]
    omega
  simp only [bitCount, if_neg hcarry]
  refine ⟨?_, ?_⟩
  · rw [BitVec.toNat_shiftLeft, hsum, Nat.shiftLeft_eq]
    omega
  · have hdisjoint : n % 2 ^ 32 / 2 ^ 29 < 2 ^ 3 := by omega
    rw [BitVec.toNat_or, BitVec.toNat_shiftLeft, hhigh, BitVec.toNat_ushiftRight, hsum,
      Nat.shiftRight_eq_div_pow, Nat.mod_eq_of_lt (by rw [Nat.shiftLeft_eq]; omega),
      ← Nat.shiftLeft_add_eq_or_of_lt hdisjoint, Nat.shiftLeft_eq]
    omega

theorem wordBytes_bitCount {n : Nat} (hn : n < 2 ^ 38) :
    wordBytes (bitCount (BitVec.ofNat 32 (n / 64)) (n % 64)).1 ++
        wordBytes (bitCount (BitVec.ofNat 32 (n / 64)) (n % 64)).2 =
      Rfc1321.lengthBytes (8 * n) := by
  obtain ⟨hlow, hhigh⟩ := toNat_bitCount hn
  have hrange : List.range 8 = List.range 4 ++ (List.range 4).map (4 + ·) := rfl
  rw [wordBytes_eq, wordBytes_eq, hlow, hhigh, Rfc1321.lengthBytes, hrange, List.map_append,
    List.map_map]
  congr 1
  · apply List.map_congr_left
    intro i hi
    have hi' := List.mem_range.mp hi
    apply UInt8.toNat_inj.mp
    have hpow : (2 : Nat) ^ 32 = 256 ^ i * 256 ^ (4 - i) := by
      rw [← Nat.pow_add, show i + (4 - i) = 4 by omega]
      norm_num
    rw [hpow, Nat.mod_mul_right_div_self]
    have hdvd : 256 ∣ 256 ^ (4 - i) := dvd_pow_self _ (by omega)
    simp [Nat.mod_mod_of_dvd _ hdvd]
  · apply List.map_congr_left
    intro i _
    simp only [Function.comp_apply]
    rw [Nat.div_div_eq_div_mul, Nat.pow_add]
    norm_num

theorem absorb_countedTransform (s : Registers × BitVec 32) (xs : List UInt8) :
    absorb (Nat.zero_lt_succ 63) (Rfc1321.compress Rfc1321.T) s.1 xs =
      ((absorb (Nat.zero_lt_succ 63) countedTransform s xs).1.1,
        (absorb (Nat.zero_lt_succ 63) countedTransform s xs).2) :=
  absorb_map (f := Prod.fst) fun s b => transform_eq_compress s.1 b

theorem iterate_add_one (n : Nat) : (· + 1)^[n] (0 : BitVec 32) = BitVec.ofNat 32 n := by
  induction n with
  | zero => rfl
  | succ n ih =>
      rw [Function.iterate_succ_apply', ih, BitVec.ofNat_add]
      rfl

theorem flushed_message {hd : Md5Context} {message : List UInt8}
    (h : hd.absorbed [] =
      absorb (Nat.zero_lt_succ 63) countedTransform (Rfc1321.initial, 0) message) :
    (md5Flush hd).nblocks = BitVec.ofNat 32 (message.length / 64) ∧
      (md5Flush hd).count = message.length % 64 := by
  have hlt := md5Flush_count_lt hd
  rw [← Md5Context.absorbed_flush, Md5Context.absorbed, List.append_nil,
    absorb_of_lt (by rw [Md5Context.pending_length]; exact hlt)] at h
  have hcounted : (absorb (Nat.zero_lt_succ 63) countedTransform (Rfc1321.initial, 0) message).1.2 =
        (· + 1)^[message.length / 64] 0 ∧
      (absorb (Nat.zero_lt_succ 63) countedTransform (Rfc1321.initial, 0) message).2.length =
        message.length % 64 :=
    absorb_iterate (f := Prod.snd) fun _ _ => rfl
  rw [← h, Md5Context.pending_length, iterate_add_one] at hcounted
  exact hcounted

/-- `md5_final` ends the chain with the padding of the RFC. -/
theorem md5Final_eq {hd : Md5Context} {message : List UInt8}
    (h : ∀ xs, hd.absorbed xs =
      absorb (Nat.zero_lt_succ 63) countedTransform (Rfc1321.initial, 0) (message ++ xs))
    (hlength : message.length < 2 ^ 38) : md5Final hd = Rfc1321.md5 message := by
  obtain ⟨hblocks, hcount⟩ := flushed_message (by simpa using h [])
  dsimp only [md5Final]
  rw [hblocks, hcount]
  generalize hbits : bitCount (BitVec.ofNat 32 (message.length / 64)) (message.length % 64) = bits
  have hcounted : wordBytes bits.1 ++ wordBytes bits.2 =
      Rfc1321.lengthBytes (8 * message.length) := by
    rw [← hbits, wordBytes_bitCount hlength]
  generalize hlast : padLast (md5Flush hd) (md5Flush_count_lt hd) = last
  have hlast56 := Md5Context.absorbed_padLast (md5Flush hd) (md5Flush_count_lt hd)
    (Rfc1321.lengthBytes (8 * message.length))
  rw [hlast, hcount, Md5Context.absorbed_flush, h] at hlast56
  have hbuf : (storeWord (storeWord last.buf 56 (by decide) bits.1) 60 (by decide) bits.2).toList =
      last.buf.toList.take 56 ++ Rfc1321.lengthBytes (8 * message.length) := by
    have houter := Md5Context.take_storeWord (storeWord last.buf 56 (by decide) bits.1) 60
      (by decide) bits.2
    rw [List.take_of_length_le (by simp), Md5Context.take_storeWord last.buf 56 (by decide),
      List.append_assoc, hcounted] at houter
    exact houter
  have hchain : (absorb (Nat.zero_lt_succ 63) (Rfc1321.compress Rfc1321.T) Rfc1321.initial
      (message ++ Rfc1321.padding message.length)).1 =
        transform last.registers
          (last.buf.toList.take 56 ++ Rfc1321.lengthBytes (8 * message.length)) := by
    have hblock : (last.buf.toList.take 56 ++
        Rfc1321.lengthBytes (8 * message.length)).length = 64 := by
      simp [Rfc1321.lengthBytes]
    have hcounted := absorb_countedTransform (Rfc1321.initial, 0)
      (message ++ Rfc1321.padding message.length)
    rw [Rfc1321.padding, ← hlast56, absorb_exact hblock] at hcounted
    rw [Rfc1321.padding, hcounted]
    rfl
  rw [Rfc1321.md5, hchain, hbuf]
  generalize transform last.registers _ = r
  rw [Md5Context.take_storeWord _ 12, Md5Context.take_storeWord _ 8, Md5Context.take_storeWord _ 4,
    Md5Context.take_storeWord _ 0]
  rfl

/-- The bytes of a file, up to the first `fread` that returns nothing. -/
def FileReads.content (fp : FileReads) : List UInt8 := (fp.freads.takeWhile (· ≠ [])).flatten

theorem md5Final_readLoop (buf : Vector UInt8 64) (fp : FileReads)
    (hlength : fp.content.length < 2 ^ 38) :
    md5Final (readLoop (md5Init buf) fp.freads) = Rfc1321.md5 fp.content :=
  md5Final_eq (fun xs => Md5Context.absorbed_readLoop (md5Init buf) fp.freads xs) hlength

/-- The digest is that of the bytes read, wherever the reads cut them. -/
theorem getMd5sum_eq_md5 (buf : Vector UInt8 64) (fopen : Option FileReads)
    (hlength : ∀ fp ∈ fopen, fp.content.length < 2 ^ 38) :
    getMd5sum buf fopen =
      fopen.bind fun fp => if fp.ferror then none else some (Rfc1321.md5 fp.content) := by
  cases fopen with
  | none => rfl
  | some fp =>
      rw [Option.bind_some, ← md5Final_readLoop buf fp (hlength fp rfl)]
      rfl

theorem getMd5sum_eq_md5_abc :
    getMd5sum (Vector.replicate 64 0)
        (some { freads := [[97, 98], [99], [], [100]], ferror := false }) =
      some (Rfc1321.md5 [97, 98, 99]) := by
  refine getMd5sum_eq_md5 (Vector.replicate 64 0)
    (some { freads := [[97, 98], [99], [], [100]], ferror := false }) ?_
  rintro fp ⟨⟩
  decide

end GwWeb.Md5sum
