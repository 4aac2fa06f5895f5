import GwWeb.ByteMemory
import GwWeb.NumeralParsing
import GwWeb.TextReading

/-!
`parse_fpga_version`: the time in a register, as fourteen digits.
-/

namespace GwWeb.FpgaVersion

open ByteMemory
open PositionalNumerals
open TextReading
open GwWeb.NumeralParsing

def memcpy (dst : Memory) (p : Int) (src : Memory) (n : Nat) : Memory :=
  store dst p (bytesAt src 0 n)

/-- The characters that `intTimeToString` writes in front of a NUL. -/
def timeChars (number : Int) : List UInt8 :=
  if number < 10 then [48, 48 + UInt8.ofInt number]
  else if 2000 ≤ number then
    let a2 := UInt8.ofInt ((number - 2000).tdiv 10)
    let a3 := UInt8.ofInt ((number - 2000).tmod 10)
    [2 + 48, 0 + 48, a2 + 48, a3 + 48]
  else [UInt8.ofInt (number.tdiv 10) + 48, UInt8.ofInt (number.tmod 10) + 48]

/-- `intTimeToString`, in the memory that its `malloc` returns. -/
def intTimeToString (number : Int) (temp : Memory) : Memory :=
  store temp 0 (timeChars number ++ [0])

/-- `parse_fpga_version`, in the memory `version` that `malloc` returns; `temp` is what it
returns to the calls of `intTimeToString`. -/
def parseFpgaVersion (number : BitVec 32) (version : Memory) (temp : Fin 6 → Memory) : Memory :=
  let seconds := (number - ((number >>> 6) <<< 6)).toInt
  let version := memcpy version 12 (intTimeToString seconds (temp 0)) 2
  let number := number >>> 6
  let minutes := (number - ((number >>> 6) <<< 6)).toInt
  let version := memcpy version 10 (intTimeToString minutes (temp 1)) 2
  let number := number >>> 6
  let hours := (number - ((number >>> 5) <<< 5)).toInt
  let version := memcpy version 8 (intTimeToString hours (temp 2)) 2
  let number := number >>> 5
  let year := (2000 + number - ((number >>> 6) <<< 6)).toInt
  let version := memcpy version 0 (intTimeToString year (temp 3)) 4
  let number := number >>> 6
  let month := (number - ((number >>> 4) <<< 4)).toInt
  let version := memcpy version 4 (intTimeToString month (temp 4)) 2
  let number := number >>> 4
  let day := number.toInt
  let version := memcpy version 6 (intTimeToString day (temp 5)) 2
  store version 14 [0]

/-- The string that is returned. -/
def versionText (number : BitVec 32) (version : Memory) (temp : Fin 6 → Memory) : List UInt8 :=
  charsWithin 32 (parseFpgaVersion number version temp) 0

/-- `len` bits of the register from bit `start` on. -/
def bits (number : BitVec 32) (start len : Nat) : Nat := (number.extractLsb' start len).toNat

/-- The number that `len` characters from `start` on show. -/
def shown (text : List UInt8) (start len : Nat) : Nat :=
  value 10 (((text.drop start).take len).map decimalTemp)

/-- The fields that a version shows, packed into a register. -/
def packed (text : List UInt8) : Nat :=
  shown text 12 2 + 2 ^ 6 * shown text 10 2 + 2 ^ 12 * shown text 8 2 +
    2 ^ 17 * (shown text 0 4 - 2000) + 2 ^ 23 * shown text 4 2 + 2 ^ 27 * shown text 6 2

/-- The digits of the version: year, month, day, hours, minutes and seconds. -/
def twoDigits (n : Nat) : List (Fin 10) := [Fin.ofNat 10 (n / 10), Fin.ofNat 10 n]

/-- The digits of year, month, day, hour, minute and second. -/
def versionDigits (number : BitVec 32) : List (Fin 10) :=
  [2, 0] ++ twoDigits (bits number 17 6) ++ twoDigits (bits number 23 4) ++
    twoDigits (bits number 27 5) ++ twoDigits (bits number 12 5) ++ twoDigits (bits number 6 6) ++
    twoDigits (bits number 0 6)

section Bits

theorem sub_shift_toNat (x : BitVec 32) (k : Nat) :
    (x - ((x >>> k) <<< k)).toNat = x.toNat % 2 ^ k := by
  have hdiv : x.toNat / 2 ^ k * 2 ^ k ≤ x.toNat := Nat.div_mul_le_self _ _
  have hmod := Nat.div_add_mod' x.toNat (2 ^ k)
  have hlt := x.isLt
  have hshift : ((x >>> k) <<< k).toNat = x.toNat / 2 ^ k * 2 ^ k := by
    rw [BitVec.toNat_shiftLeft, BitVec.toNat_ushiftRight, Nat.shiftRight_eq_div_pow,
      Nat.shiftLeft_eq, Nat.mod_eq_of_lt (by omega)]
  rw [BitVec.toNat_sub, hshift]
  omega

theorem bits_eq (number : BitVec 32) (start len : Nat) :
    bits number start len = number.toNat / 2 ^ start % 2 ^ len := by
  rw [bits, BitVec.extractLsb'_toNat, Nat.shiftRight_eq_div_pow]

theorem bits_lt (number : BitVec 32) (start : Nat) {len : Nat} (hlen : len ≤ 6) :
    bits number start len < 64 := by
  rw [bits_eq]
  calc _ < 2 ^ len := Nat.mod_lt _ (Nat.two_pow_pos _)
    _ ≤ 2 ^ 6 := Nat.pow_le_pow_right (by norm_num) hlen

theorem toInt_of_lt {x : BitVec 32} (h : x.toNat < 2 ^ 31) : x.toInt = x.toNat :=
  BitVec.toInt_eq_toNat_of_lt (by omega)

theorem field_toInt (number : BitVec 32) {start len next : Nat} (hlen : len ≤ 6)
    (hnext : start + len = next) :
    (number >>> start - ((number >>> next) <<< len)).toInt = bits number start len := by
  have hnat : (number >>> start - ((number >>> next) <<< len)).toNat = bits number start len := by
    rw [← hnext, BitVec.shiftRight_add, sub_shift_toNat, BitVec.toNat_ushiftRight,
      Nat.shiftRight_eq_div_pow, bits_eq]
  have hlt := bits_lt number start hlen
  rw [toInt_of_lt (by omega), hnat]

theorem year_toInt (number : BitVec 32) :
    (2000 + number >>> 17 - ((number >>> 23) <<< 6)).toInt =
      (2000 + bits number 17 6 : Nat) := by
  have hlt := bits_lt number 17 (Nat.le_refl 6)
  have hshift : number >>> 23 = (number >>> 17) >>> 6 := BitVec.shiftRight_add number 17 6
  have hnat : (2000 + number >>> 17 - ((number >>> 23) <<< 6)).toNat =
      2000 + bits number 17 6 := by
    rw [hshift, add_sub_assoc, BitVec.toNat_add, sub_shift_toNat, BitVec.toNat_ushiftRight,
      Nat.shiftRight_eq_div_pow, ← bits_eq]
    exact Nat.mod_eq_of_lt (by simp; omega)
  rw [toInt_of_lt (by omega), hnat]

theorem day_toInt (number : BitVec 32) : (number >>> 27).toInt = bits number 27 5 := by
  have hlt := number.isLt
  have hnat : (number >>> 27).toNat = bits number 27 5 := by
    rw [bits_eq, BitVec.toNat_ushiftRight, Nat.shiftRight_eq_div_pow]
    omega
  rw [toInt_of_lt (by have := bits_lt number 27 (show 5 ≤ 6 by norm_num); omega), hnat]

end Bits

section Chars

theorem timeChars_short {n : Nat} (h : n < 64) : timeChars n = decimalText (twoDigits n) := by
  have hall : ∀ n : Fin 64, timeChars n.val = decimalText (twoDigits n) := by decide
  exact hall ⟨n, h⟩

theorem timeChars_year {n : Nat} (h : n < 64) :
    timeChars (2000 + n : Nat) = decimalText ([2, 0] ++ twoDigits n) := by
  have hall : ∀ n : Fin 64,
      timeChars (2000 + n.val : Nat) = decimalText ([2, 0] ++ twoDigits n) := by decide
  exact hall ⟨n, h⟩

theorem bytesAt_intTimeToString {number : Int} {digits : List (Fin 10)}
    (h : timeChars number = decimalText digits) (temp : Memory) :
    bytesAt (intTimeToString number temp) 0 digits.length = decimalText digits := by
  rw [intTimeToString, h, ← length_decimalText digits]
  exact bytesAt_store_left temp 0 _ _

theorem memcpy_intTimeToString {number : Int} {digits : List (Fin 10)}
    (h : timeChars number = decimalText digits) (version temp : Memory) (p : Int) :
    memcpy version p (intTimeToString number temp) digits.length =
      store version p (decimalText digits) := by
  rw [memcpy, bytesAt_intTimeToString h]

theorem memcpy_short {n : Nat} (h : n < 64) (version temp : Memory) (p : Int) :
    memcpy version p (intTimeToString n temp) 2 = store version p (decimalText (twoDigits n)) :=
  memcpy_intTimeToString (timeChars_short h) version temp p

theorem memcpy_year {n : Nat} (h : n < 64) (version temp : Memory) (p : Int) :
    memcpy version p (intTimeToString (2000 + n : Nat) temp) 4 =
      store version p (decimalText ([2, 0] ++ twoDigits n)) :=
  memcpy_intTimeToString (timeChars_year h) version temp p

end Chars

theorem parseFpgaVersion_eq (number : BitVec 32) (version : Memory) (temp : Fin 6 → Memory) :
    parseFpgaVersion number version temp =
      store (store (store (store (store (store (store version
        12 (decimalText (twoDigits (bits number 0 6))))
        10 (decimalText (twoDigits (bits number 6 6))))
        8 (decimalText (twoDigits (bits number 12 5))))
        0 (decimalText ([2, 0] ++ twoDigits (bits number 17 6))))
        4 (decimalText (twoDigits (bits number 23 4))))
        6 (decimalText (twoDigits (bits number 27 5))))
        14 [0] := by
  have hseconds : (number - ((number >>> 6) <<< 6)).toInt = bits number 0 6 := by
    simpa using field_toInt number (Nat.le_refl 6) (Nat.zero_add 6)
  have hminutes : (number >>> 6 - ((number >>> 12) <<< 6)).toInt = bits number 6 6 :=
    field_toInt number (by norm_num) (by norm_num)
  have hhours : (number >>> 12 - ((number >>> 17) <<< 5)).toInt = bits number 12 5 :=
    field_toInt number (by norm_num) (by norm_num)
  have hmonth : (number >>> 23 - ((number >>> 27) <<< 4)).toInt = bits number 23 4 :=
    field_toInt number (by norm_num) (by norm_num)
  have hlt : ∀ (start : Nat) {len : Nat}, len ≤ 6 → bits number start len < 64 :=
    fun start _ hlen => bits_lt number start hlen
  have h12 : number >>> 6 >>> 6 = number >>> 12 := (BitVec.shiftRight_add number 6 6).symm
  have h17 : number >>> 12 >>> 5 = number >>> 17 := (BitVec.shiftRight_add number 12 5).symm
  have h23 : number >>> 17 >>> 6 = number >>> 23 := (BitVec.shiftRight_add number 17 6).symm
  have h27 : number >>> 23 >>> 4 = number >>> 27 := (BitVec.shiftRight_add number 23 4).symm
  unfold parseFpgaVersion
  dsimp only
  rw [h12, h17, h23, h27, hseconds, hminutes, hhours, year_toInt, hmonth, day_toInt]
  rw [memcpy_short (hlt 0 (by norm_num)), memcpy_short (hlt 6 (by norm_num)),
    memcpy_short (hlt 12 (by norm_num)), memcpy_year (hlt 17 (by norm_num)),
    memcpy_short (hlt 23 (by norm_num)), memcpy_short (hlt 27 (by norm_num))]

section Text

theorem bytesAt_field (m : Memory) (p : Int) (n : Nat) :
    bytesAt (store m p (decimalText (twoDigits n))) p 2 = decimalText (twoDigits n) :=
  bytesAt_store m p (decimalText (twoDigits n))

theorem bytesAt_otherField {m : Memory} {p q : Int} {n k : Nat} (h : q + k ≤ p ∨ p + 2 ≤ q) :
    bytesAt (store m p (decimalText (twoDigits n))) q k = bytesAt m q k :=
  bytesAt_store_disjoint h

theorem bytesAt_parseFpgaVersion (number : BitVec 32) (version : Memory) (temp : Fin 6 → Memory) :
    bytesAt (parseFpgaVersion number version temp) 0 14 = decimalText (versionDigits number) := by
  rw [parseFpgaVersion_eq, bytesAt_store_disjoint (by simp)]
  have hyear : ∀ m, bytesAt (store m 0 (decimalText ([2, 0] ++ twoDigits (bits number 17 6)))) 0 4 =
      decimalText ([2, 0] ++ twoDigits (bits number 17 6)) := fun m => bytesAt_store m 0 _
  have hbehind : ∀ m (q : Int) (k : Nat), 4 ≤ q →
      bytesAt (store m 0 (decimalText ([2, 0] ++ twoDigits (bits number 17 6)))) q k =
        bytesAt m q k :=
    fun m q k hq => bytesAt_store_disjoint (.inr (show (0 : Int) + (4 : Nat) ≤ q by omega))
  have hsplit : ∀ m, bytesAt m 0 14 = bytesAt m 0 4 ++ bytesAt m 4 2 ++ bytesAt m 6 2 ++
      bytesAt m 8 2 ++ bytesAt m 10 2 ++ bytesAt m 12 2 := by
    intro m
    rw [show 14 = 4 + 2 + 2 + 2 + 2 + 2 from rfl]
    simp only [bytesAt_add, Int.zero_add]
    rfl
  rw [hsplit]
  simp (disch := decide) only [bytesAt_field, bytesAt_otherField, hyear, hbehind]
  simp [versionDigits, decimalText]

theorem versionText_eq (number : BitVec 32) (version : Memory) (temp : Fin 6 → Memory) :
    versionText number version temp = decimalText (versionDigits number) := by
  have hnul : parseFpgaVersion number version temp 14 = 0 := by
    rw [parseFpgaVersion_eq]
    rfl
  have hbytes : bytesAt (parseFpgaVersion number version temp) 0 32 =
      decimalText (versionDigits number) ++
        0 :: bytesAt (parseFpgaVersion number version temp) 15 17 := by
    rw [show 32 = 14 + (1 + 17) from rfl, bytesAt_add, bytesAt_parseFpgaVersion, bytesAt_add,
      ← hnul]
    rfl
  exact charsWithin_eq hbytes (decimalText_ne_zero _)

theorem shown_decimalText (digits : List (Fin 10)) (start len : Nat) :
    shown (decimalText digits) start len =
      value 10 (((digits.map Fin.val).drop start).take len) := by
  rw [shown, List.map_take, List.map_drop, decimalTemp_decimalText]

theorem value_twoDigits {n : Nat} (h : n < 64) : value 10 ((twoDigits n).map Fin.val) = n := by
  have hdigits : (twoDigits n).map Fin.val = [n / 10 % 10, n % 10] := rfl
  rw [hdigits, value_cons, value_singleton]
  simp
  omega

theorem value_year {n : Nat} (h : n < 64) :
    value 10 (([2, 0] ++ twoDigits n).map Fin.val) = 2000 + n := by
  rw [List.map_append, value_append, value_twoDigits h]
  rfl

theorem shown_versionDigits (number : BitVec 32) :
    shown (decimalText (versionDigits number)) 0 4 = 2000 + bits number 17 6 ∧
    shown (decimalText (versionDigits number)) 4 2 = bits number 23 4 ∧
    shown (decimalText (versionDigits number)) 6 2 = bits number 27 5 ∧
    shown (decimalText (versionDigits number)) 8 2 = bits number 12 5 ∧
    shown (decimalText (versionDigits number)) 10 2 = bits number 6 6 ∧
    shown (decimalText (versionDigits number)) 12 2 = bits number 0 6 := by
  have hlt : ∀ (start : Nat) {len : Nat}, len ≤ 6 → bits number start len < 64 :=
    fun start _ hlen => bits_lt number start hlen
  simp only [shown_decimalText]
  exact ⟨value_year (hlt 17 (by norm_num)), value_twoDigits (hlt 23 (by norm_num)),
    value_twoDigits (hlt 27 (by norm_num)), value_twoDigits (hlt 12 (by norm_num)),
    value_twoDigits (hlt 6 (by norm_num)), value_twoDigits (hlt 0 (by norm_num))⟩

theorem packed_versionDigits (number : BitVec 32) :
    packed (decimalText (versionDigits number)) = number.toNat := by
  obtain ⟨hyear, hmonth, hday, hhours, hminutes, hseconds⟩ := shown_versionDigits number
  have hlt := number.isLt
  rw [packed, hyear, hmonth, hday, hhours, hminutes, hseconds]
  simp only [bits_eq]
  omega

end Text

/-- The version is fourteen digits that show the fields of the register and give it back. -/
theorem fpga_version_faithful (number : BitVec 32) (version : Memory) (temp : Fin 6 → Memory) :
    (∃ digits : List (Fin 10), digits.length = 14 ∧
      versionText number version temp = decimalText digits) ∧
    (shown (versionText number version temp) 0 4 = 2000 + bits number 17 6 ∧
      shown (versionText number version temp) 4 2 = bits number 23 4 ∧
      shown (versionText number version temp) 6 2 = bits number 27 5 ∧
      shown (versionText number version temp) 8 2 = bits number 12 5 ∧
      shown (versionText number version temp) 10 2 = bits number 6 6 ∧
      shown (versionText number version temp) 12 2 = bits number 0 6) ∧
    packed (versionText number version temp) = number.toNat ∧
    ∀ number' version' temp', versionText number version temp = versionText number' version' temp' →
      number = number' := by
  simp only [versionText_eq]
  refine ⟨⟨versionDigits number, rfl, rfl⟩, shown_versionDigits number,
    packed_versionDigits number, fun number' _ _ hsame => BitVec.eq_of_toNat_eq ?_⟩
  rw [← packed_versionDigits number, hsame, packed_versionDigits number']

end GwWeb.FpgaVersion
