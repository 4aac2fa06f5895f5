import Mathlib.Data.BitVec
import Mathlib.Tactic.Ring
import GwWeb.PositionalNumerals

/-!
The numeral parsers of `small_utility.c`.
-/

namespace GwWeb.NumeralParsing

open PositionalNumerals

/-- `int len = strlen(ret)`. -/
def intLen (cs : List UInt8) : Int := (cs.length : Int).bmod (2 ^ 32)

/-- The loop of `stringToDecimalInt` and `stringToInt`; `flag` is set behind the leading
zeros, and nothing is left to come at `i == len - 1`. -/
def numeralLoop (base : BitVec 32) (temp : UInt8 → Nat) :
    List UInt8 → Bool → BitVec 32 → BitVec 32
  | [], _, number => number
  | c :: cs, flag, number =>
      if c = 48 ∧ flag = false then numeralLoop base temp cs false number
      else
        let number := number + BitVec.ofNat 32 (temp c)
        numeralLoop base temp cs true (if cs = [] then number else number * base)

/-- The value of a character in `stringToDecimalInt`. -/
def decimalTemp (c : UInt8) : Nat := if 48 ≤ c ∧ c ≤ 57 then c.toNat - 48 else 0

/-- The value of a character in `stringToInt`. -/
def hexTemp (c : UInt8) : Nat :=
  if 48 ≤ c ∧ c ≤ 57 then c.toNat - 48
  else if 97 ≤ c ∧ c ≤ 102 then c.toNat - 97 + 10
  else if 65 ≤ c ∧ c ≤ 70 then c.toNat - 65 + 10
  else 0

def stringToDecimalInt (ret : Option (List UInt8)) : BitVec 32 :=
  match ret with
  | none => -1
  | some cs =>
      if intLen cs < 1 then -1
      else numeralLoop 10 decimalTemp (cs.take (intLen cs).toNat) false 0

/-- `stringToInt`: what follows `0x`. -/
def stringToInt (ret : Option (List UInt8)) : BitVec 32 :=
  match ret with
  | none => -1
  | some cs =>
      if intLen cs < 3 then -1
      else if cs[0]? ≠ some 48 ∨ cs[1]? ≠ some 120 then -1
      else numeralLoop 16 hexTemp ((cs.take (intLen cs).toNat).drop 2) false 0

/-- A string of decimal digits. -/
def decimalText (digits : List (Fin 10)) : List UInt8 :=
  digits.map fun d => UInt8.ofNat (48 + d.val)

/-- A hexadecimal digit, in one of the two cases. -/
def hexChar (d : Fin 16) (upper : Bool) : UInt8 :=
  UInt8.ofNat (if d < 10 then 48 + d.val else if upper then 55 + d.val else 87 + d.val)

/-- `0x` and hexadecimal digits, each in the case it is given. -/
def hexText (digits : List (Fin 16 × Bool)) : List UInt8 :=
  48 :: 120 :: digits.map fun d => hexChar d.1 d.2

section Loop

variable {temp : UInt8 → Nat} {b : Nat}

/-- Behind a first digit that counts, the loop multiplies what it has by the base for each
digit but the last. -/
theorem numeralLoop_counting (c : UInt8) (cs : List UInt8) (number : BitVec 32) :
    numeralLoop b temp (c :: cs) true number =
      number * (b : BitVec 32) ^ cs.length + (value b ((c :: cs).map temp) : BitVec 32) := by
  induction cs generalizing c number with
  | nil =>
      simp [numeralLoop, BitVec.natCast_eq_ofNat]
  | cons c' cs ih =>
      have hstep : numeralLoop b temp (c :: c' :: cs) true number =
          numeralLoop b temp (c' :: cs) true ((number + (temp c : BitVec 32)) * b) := by
        simp [numeralLoop, BitVec.natCast_eq_ofNat]
      rw [hstep, ih, List.map_cons (a := c), value_cons]
      simp only [List.length_map, List.length_cons]
      push_cast
      ring

theorem numeralLoop_eq (hzero : temp 48 = 0) (cs : List UInt8) :
    numeralLoop b temp cs false 0 = (value b (cs.map temp) : BitVec 32) := by
  induction cs with
  | nil => rfl
  | cons c cs ih =>
      by_cases hc : c = 48
      · subst hc
        rw [numeralLoop, if_pos ⟨rfl, rfl⟩, ih, List.map_cons, hzero, value_zero_cons]
      · have hflag : numeralLoop b temp (c :: cs) false 0 =
            numeralLoop b temp (c :: cs) true 0 := by
          simp [numeralLoop, hc]
        rw [hflag, numeralLoop_counting]
        simp

theorem numeralLoop_toNat (hzero : temp 48 = 0) (cs : List UInt8) :
    (numeralLoop b temp cs false 0).toNat = value b (cs.map temp) % 2 ^ 32 := by
  rw [numeralLoop_eq hzero, BitVec.natCast_eq_ofNat, BitVec.toNat_ofNat]

end Loop

theorem decimalTemp_decimalText (digits : List (Fin 10)) :
    (decimalText digits).map decimalTemp = digits.map Fin.val := by
  have hdigit : ∀ d : Fin 10, decimalTemp (UInt8.ofNat (48 + d.val)) = d.val := by decide
  rw [decimalText, List.map_map]
  exact List.map_congr_left fun d _ => hdigit d

theorem decimalText_ne_zero (digits : List (Fin 10)) : ∀ c ∈ decimalText digits, c ≠ 0 := by
  have hdigit : ∀ d : Fin 10, UInt8.ofNat (48 + d.val) ≠ 0 := by decide
  intro c hc
  obtain ⟨d, -, rfl⟩ := List.mem_map.mp hc
  exact hdigit d

theorem hexTemp_hexChar (d : Fin 16) (upper : Bool) : hexTemp (hexChar d upper) = d.val := by
  revert d upper
  decide

theorem length_decimalText (digits : List (Fin 10)) :
    (decimalText digits).length = digits.length := by
  rw [decimalText, List.length_map]

theorem decimalText_append (digits digits' : List (Fin 10)) :
    decimalText (digits ++ digits') = decimalText digits ++ decimalText digits' :=
  List.map_append

theorem length_hexText (digits : List (Fin 16 × Bool)) :
    (hexText digits).length = 2 + digits.length := by
  rw [hexText, List.length_cons, List.length_cons, List.length_map]
  omega

section Lengths

/-- What `int` makes of the length of a numeral of these digits behind `k` characters, and
what is read of it then: the digits agree modulo 2^32 with what they stand for. -/
def KeepsValue (b k : Nat) (digits : List Nat) : Prop :=
  let len := ((k + digits.length : Nat) : Int).bmod (2 ^ 32)
  let last := value b (digits.drop (digits.length - 32))
  len < k + 1 ∧ last % 2 ^ 32 = 2 ^ 32 - 1 ∨
    k + 1 ≤ len ∧ value b (digits.take (len.toNat - k)) ≡ last [MOD 2 ^ 32]

instance (b k : Nat) (digits : List Nat) : Decidable (KeepsValue b k digits) :=
  inferInstanceAs (Decidable (_ ∧ _ ∨ _ ∧ _ % _ = _ % _))

variable {b k : Nat} {digits : List Nat}

/-- What a numeral is read as behind `k` characters. -/
def readAs (b k : Nat) (digits : List Nat) : Nat :=
  let len := ((k + digits.length : Nat) : Int).bmod (2 ^ 32)
  if len < k + 1 then 2 ^ 32 - 1 else value b (digits.take (len.toNat - k)) % 2 ^ 32

theorem readAs_eq_iff (hb : 2 ^ 32 ∣ b ^ 32) :
    readAs b k digits = value b digits % 2 ^ 32 ↔ KeepsValue b k digits := by
  have hlast : value b digits % 2 ^ 32 =
      value b (digits.drop (digits.length - 32)) % 2 ^ 32 := value_modEq_last hb digits
  rw [hlast]
  unfold readAs KeepsValue
  dsimp only
  split
  · rename_i hshort
    rw [and_iff_right hshort, or_iff_left fun h => absurd h.1 (by omega)]
    exact eq_comm
  · rename_i hlong
    rw [or_iff_right fun h => hlong h.1, and_iff_right (by omega)]
    exact Iff.rfl

theorem bmod_length_of_lt {n : Nat} (hn : n < 2 ^ 31) : (n : Int).bmod (2 ^ 32) = n := by
  apply Int.bmod_eq_of_le <;> omega

theorem keepsValue_of_lt (hb : 2 ^ 32 ∣ b ^ 32) (hne : digits ≠ [])
    (hlt : k + digits.length < 2 ^ 31) : KeepsValue b k digits := by
  have hpos : 0 < digits.length := List.length_pos_of_ne_nil hne
  rw [← readAs_eq_iff hb]
  unfold readAs
  dsimp only
  rw [bmod_length_of_lt hlt, if_neg (by omega)]
  have hall : (((k + digits.length : Nat) : Int).toNat - k) = digits.length := by omega
  rw [hall, List.take_length]

theorem readAs_eq_iff_or (hb : 2 ^ 32 ∣ b ^ 32) (hne : digits ≠ []) :
    readAs b k digits = value b digits % 2 ^ 32 ↔
      k + digits.length < 2 ^ 31 ∨ KeepsValue b k digits := by
  rw [readAs_eq_iff hb]
  exact (or_iff_right_of_imp (keepsValue_of_lt hb hne)).symm

theorem intLen_of_length {cs : List UInt8} {n : Nat} (h : cs.length = n) :
    intLen cs = (n : Int).bmod (2 ^ 32) := by
  subst h
  rfl

theorem stringToDecimalInt_decimalText (ds : List (Fin 10)) :
    (stringToDecimalInt (some (decimalText ds))).toNat = readAs 10 0 (ds.map Fin.val) := by
  have hlen : intLen (decimalText ds) =
      ((0 + (ds.map Fin.val).length : Nat) : Int).bmod (2 ^ 32) :=
    intLen_of_length (by simp [length_decimalText])
  unfold stringToDecimalInt readAs
  dsimp only
  rw [← hlen]
  split
  · rw [if_pos (by omega)]
    rfl
  · rw [if_neg (by omega), Nat.sub_zero, ← decimalTemp_decimalText, ← List.map_take]
    exact numeralLoop_toNat rfl _

theorem stringToInt_hexText (ds : List (Fin 16 × Bool)) :
    (stringToInt (some (hexText ds))).toNat = readAs 16 2 (ds.map fun d => d.1.val) := by
  have hlen : intLen (hexText ds) =
      ((2 + (ds.map fun d => d.1.val).length : Nat) : Int).bmod (2 ^ 32) :=
    intLen_of_length (by simp [length_hexText])
  unfold stringToInt readAs
  dsimp only
  rw [← hlen]
  split
  · rw [if_pos (by omega)]
    rfl
  · rw [if_neg (by simp [hexText]), if_neg (by omega), List.drop_take]
    have hdigits : ((hexText ds).drop 2).map hexTemp = ds.map fun d => d.1.val := by
      simp [hexText, hexTemp_hexChar]
    rw [← hdigits, ← List.map_take]
    exact numeralLoop_toNat rfl _

end Lengths

theorem stringToDecimalInt_of_lt {cs : List UInt8} (hne : cs ≠ []) (hlt : cs.length < 2 ^ 31) :
    (stringToDecimalInt (some cs)).toNat = value 10 (cs.map decimalTemp) % 2 ^ 32 := by
  have hpos : 0 < cs.length := List.length_pos_of_ne_nil hne
  have hlen : intLen cs = cs.length := bmod_length_of_lt hlt
  unfold stringToDecimalInt
  dsimp only
  rw [hlen, if_neg (by omega), Int.toNat_natCast, List.take_length]
  exact numeralLoop_toNat rfl _

/-- A numeral is read as its value modulo 2^32 if its length fits an `int`. A longer one is
cut, or taken for an error, and read so only if its digits happen to agree with that. -/
theorem numerals_read_iff {ds : List (Fin 10)} {hs : List (Fin 16 × Bool)} (hds : ds ≠ [])
    (hhs : hs ≠ []) :
    ((stringToDecimalInt (some (decimalText ds))).toNat = value 10 (ds.map Fin.val) % 2 ^ 32 ↔
      (decimalText ds).length < 2 ^ 31 ∨ KeepsValue 10 0 (ds.map Fin.val)) ∧
    ((stringToInt (some (hexText hs))).toNat = value 16 (hs.map fun d => d.1.val) % 2 ^ 32 ↔
      (hexText hs).length < 2 ^ 31 ∨ KeepsValue 16 2 (hs.map fun d => d.1.val)) := by
  constructor
  · rw [stringToDecimalInt_decimalText, readAs_eq_iff_or (by decide) (by simpa using hds),
      List.length_map, Nat.zero_add, ← length_decimalText]
  · rw [stringToInt_hexText, readAs_eq_iff_or (by decide) (by simpa using hhs),
      List.length_map, ← length_hexText]

theorem numerals_read_iff_two_numerals :
    ((stringToDecimalInt (some (decimalText [0, 4, 0]))).toNat = 40 % 2 ^ 32 ↔
      (decimalText [0, 4, 0]).length < 2 ^ 31 ∨ KeepsValue 10 0 [0, 4, 0]) ∧
    ((stringToInt (some (hexText [(1, false), (11, true)]))).toNat = 27 % 2 ^ 32 ↔
      (hexText [(1, false), (11, true)]).length < 2 ^ 31 ∨ KeepsValue 16 2 [1, 11]) :=
  numerals_read_iff (by decide) (by decide)

/-- 2^31 zeros: `len` is negative, and they are taken for no numeral at all. -/
theorem zeros_not_read :
    (stringToDecimalInt (some (decimalText (List.replicate (2 ^ 31) 0)))).toNat ≠
      value 10 ((List.replicate (2 ^ 31) (0 : Fin 10)).map Fin.val) % 2 ^ 32 := by
  rw [stringToDecimalInt_decimalText, List.map_replicate]
  have hvalue : value 10 (List.replicate (2 ^ 31) (0 : Fin 10).val) = 0 := value_replicate_zero _
  have hread : readAs 10 0 (List.replicate (2 ^ 31) (0 : Fin 10).val) = 2 ^ 32 - 1 := by
    unfold readAs
    dsimp only
    rw [List.length_replicate]
    exact if_pos (by decide)
  rw [hread, hvalue]
  decide

end GwWeb.NumeralParsing
