import GwWeb.MosquittoBroker
import GwWeb.Receive
import GwWeb.StreamDecoding

/-!
The reading of a saved RSSI file: three little-endian words, seconds,
microseconds and length, then as many bytes.
-/

namespace GwWeb.SampleRecords

open StreamDecoding
open GwWeb.Receive
open GwWeb.MosquittoBroker

/-- The value of an `int32_t`. -/
def InInt32 (x : Int) : Prop := -2147483648 ≤ x ∧ x < 2147483648

instance (x : Int) : Decidable (InInt32 x) := inferInstanceAs (Decidable (_ ∧ _))

/-- One record of the file. -/
@[ext]
structure Sample where
  tvSec : Int
  tvUsec : Int
  rssi : List UInt8
  sec_int : InInt32 tvSec
  usec_int : InInt32 tvUsec
  length_int : InInt32 rssi.length

/-- The record as bytes. -/
def Sample.encode (s : Sample) : List UInt8 :=
  int32Bytes s.tvSec ++ int32Bytes s.tvUsec ++ int32Bytes s.rssi.length ++ s.rssi

/-- What a file read back says of one sample. -/
def Sample.fields (s : Sample) : Int × Int × List UInt8 := (s.tvSec, s.tvUsec, s.rssi)

/-- The `int32_t` at the front. -/
def headInt (xs : List UInt8) : Int :=
  int32 ((xs.getD 0 0).toNat + 256 * (xs.getD 1 0).toNat + 65536 * (xs.getD 2 0).toNat +
    16777216 * (xs.getD 3 0).toNat)

theorem headInt_inInt32 (xs : List UInt8) : InInt32 (headInt xs) := int32_bounds _

theorem headInt_append {xs : List UInt8} (h : 4 ≤ xs.length) (zs : List UInt8) :
    headInt (xs ++ zs) = headInt xs := by
  simp only [headInt, List.getD_eq_getElem?_getD]
  repeat rw [List.getElem?_append_left (by omega)]

theorem headInt_drop_append {n : Nat} {xs : List UInt8} (h : n + 4 ≤ xs.length)
    (zs : List UInt8) : headInt ((xs ++ zs).drop n) = headInt (xs.drop n) := by
  rw [List.drop_append_of_le_length (by omega), headInt_append]
  rw [List.length_drop]
  omega

theorem take_drop_append {m n : Nat} {xs : List UInt8} (h : n + m ≤ xs.length)
    (zs : List UInt8) : ((xs ++ zs).drop n).take m = (xs.drop n).take m := by
  rw [List.drop_append_of_le_length (by omega), List.take_append_of_le_length]
  rw [List.length_drop]
  omega

theorem toNat_ofInt (x : Int) : ((UInt8.ofInt x).toNat : Int) = x % 256 := by
  have hlt : (x % 2 ^ 8).toNat < 256 := by omega
  rw [UInt8.ofInt, UInt8.toNat_ofNat', Nat.mod_eq_of_lt hlt]
  omega

theorem headInt_int32Bytes {x : Int} (hx : InInt32 x) (xs : List UInt8) :
    headInt (int32Bytes x ++ xs) = x := by
  obtain ⟨hlo, hhi⟩ := hx
  simp only [headInt, int32Bytes, List.cons_append, List.nil_append, List.getD_cons_zero,
    List.getD_cons_succ, toNat_ofInt]
  unfold int32
  omega

@[simp] theorem int32Bytes_length (x : Int) : (int32Bytes x).length = 4 := rfl

/-- The length that a record announces. -/
def sampleLength (xs : List UInt8) : Int := headInt (xs.drop 8)

/-- A whole record lies at the front. -/
def WholeRecord (xs : List UInt8) : Prop :=
  12 ≤ xs.length ∧ 0 ≤ sampleLength xs ∧ 12 + (sampleLength xs).toNat ≤ xs.length

instance (xs : List UInt8) : Decidable (WholeRecord xs) := inferInstanceAs (Decidable (_ ∧ _ ∧ _))

/-- The record at the front. -/
def headSample (xs : List UInt8) : Sample where
  tvSec := headInt xs
  tvUsec := headInt (xs.drop 4)
  rssi := (xs.drop 12).take (sampleLength xs).toNat
  sec_int := headInt_inInt32 _
  usec_int := headInt_inInt32 _
  length_int := by
    have hbound := (headInt_inInt32 (xs.drop 8)).2
    simp only [InInt32, sampleLength, List.length_take, List.length_drop]
    omega

/-- The record at the front, and what is behind it. -/
def takeSample (xs : List UInt8) : Option (Sample × List UInt8) :=
  if WholeRecord xs then some (headSample xs, xs.drop (12 + (sampleLength xs).toNat)) else none

theorem sampleLength_append {xs : List UInt8} (h : 12 ≤ xs.length) (zs : List UInt8) :
    sampleLength (xs ++ zs) = sampleLength xs := by
  exact headInt_drop_append h zs

theorem takeSample_eq_some {xs ys : List UInt8} {s : Sample} (h : takeSample xs = some (s, ys)) :
    WholeRecord xs ∧ s = headSample xs ∧ ys = xs.drop (12 + (sampleLength xs).toNat) := by
  unfold takeSample at h
  split at h
  · rename_i hwhole
    obtain ⟨rfl, rfl⟩ := Prod.mk.inj (Option.some.inj h)
    exact ⟨hwhole, rfl, rfl⟩
  · cases h

theorem headSample_append {xs : List UInt8} (h : WholeRecord xs) (zs : List UInt8) :
    headSample (xs ++ zs) = headSample xs := by
  obtain ⟨hlen, -, hfits⟩ := h
  apply Sample.ext
  · exact headInt_append (by omega) zs
  · exact headInt_drop_append (by omega) zs
  · simp only [headSample, sampleLength_append hlen]
    exact take_drop_append hfits zs

theorem takeSample_append {xs ys : List UInt8} {s : Sample} (zs : List UInt8)
    (h : takeSample xs = some (s, ys)) : takeSample (xs ++ zs) = some (s, ys ++ zs) := by
  obtain ⟨hwhole, hs, hys⟩ := takeSample_eq_some h
  have hsame := headSample_append hwhole zs
  obtain ⟨hlen, hnonneg, hfits⟩ := hwhole
  have hlength := sampleLength_append hlen zs
  have hwhole' : WholeRecord (xs ++ zs) := by
    rw [WholeRecord, hlength, List.length_append]
    omega
  rw [takeSample, if_pos hwhole', hsame, hlength, List.drop_append_of_le_length hfits, hs, hys]

theorem takeSample_length {xs ys : List UInt8} {s : Sample} (h : takeSample xs = some (s, ys)) :
    ys.length < xs.length := by
  obtain ⟨⟨hlen, -, -⟩, -, hys⟩ := takeSample_eq_some h
  rw [hys, List.length_drop]
  omega

/-- The decoder of a file. -/
def sampleDecoder : PrefixDecoder UInt8 Sample where
  next := takeSample
  next_length := takeSample_length
  next_append := takeSample_append

theorem sampleDecoder_next : sampleDecoder.next = takeSample := rfl

theorem sampleLength_encode (s : Sample) (zs : List UInt8) :
    sampleLength (s.encode ++ zs) = s.rssi.length := by
  have hdrop : (s.encode ++ zs).drop 8 = int32Bytes s.rssi.length ++ (s.rssi ++ zs) := by
    simp [Sample.encode, int32Bytes]
  rw [sampleLength, hdrop, headInt_int32Bytes s.length_int]

theorem headSample_encode (s : Sample) (zs : List UInt8) : headSample (s.encode ++ zs) = s := by
  apply Sample.ext
  · simp only [headSample, Sample.encode, List.append_assoc]
    exact headInt_int32Bytes s.sec_int _
  · have hdrop : (s.encode ++ zs).drop 4 =
        int32Bytes s.tvUsec ++ (int32Bytes s.rssi.length ++ (s.rssi ++ zs)) := by
      simp [Sample.encode, int32Bytes]
    simp only [headSample, hdrop]
    exact headInt_int32Bytes s.usec_int _
  · have hdrop : (s.encode ++ zs).drop 12 = s.rssi ++ zs := by simp [Sample.encode, int32Bytes]
    simp only [headSample, sampleLength_encode, hdrop, Int.toNat_natCast]
    exact List.take_left

/-- What is written as a record is read as that record, whatever follows. -/
theorem sampleDecoder_encodes : sampleDecoder.Encodes Sample.encode := by
  intro s zs
  have hwhole : WholeRecord (s.encode ++ zs) := by
    rw [WholeRecord, sampleLength_encode]
    simp [Sample.encode]
    omega
  have hdrop : (s.encode ++ zs).drop (12 + s.rssi.length) = zs := by
    rw [← List.drop_drop]
    simp [Sample.encode, int32Bytes]
  rw [sampleDecoder_next, takeSample, if_pos hwhole, headSample_encode, sampleLength_encode,
    Int.toNat_natCast, hdrop]

theorem drain_records (samples : List Sample) :
    sampleDecoder.drain (samples.map Sample.encode).flatten = (samples, []) := by
  have hnil : sampleDecoder.next [] = none := by decide
  have hdrain := PrefixDecoder.drain_encoded sampleDecoder_encodes samples []
  rw [sampleDecoder.drain_of_none hnil, List.append_nil, List.append_nil] at hdrain
  exact hdrain

end GwWeb.SampleRecords
