import GwWeb.BinaryFloat
import GwWeb.NumeralParsing
import GwWeb.TextReading
import GwWeb.WebCommon

/-!
`get_zynq_temper`: the temperature that `xadc` prints as its third word.
-/

namespace GwWeb.ZynqTemper

open BinaryFloat
open ByteMemory
open PositionalNumerals
open TextReading
open GwWeb.NumeralParsing
open GwWeb.WebCommon

/-- `buffer` behind `fread`, with its terminator. -/
def readOutput (output : List UInt8) (buffer : Memory) : Memory :=
  store (store buffer 0 (output.take 4096)) 32 [0]

/-- What the scan of the output finds. -/
structure Indices where
  startIdx : Int
  endIdx : Int
  dotIdx : Int

/-- The loop over `buffer`, from index `i` on; it breaks at the third space. -/
def scanLoop : List UInt8 → Nat → Nat → Indices → Indices
  | [], _, _, s => s
  | c :: cs, i, count, s =>
      if c = 32 ∧ count + 1 = 3 then { s with endIdx := i }
      else
        let s := if c = 32 ∧ count + 1 = 2 then { s with startIdx := i } else s
        let s := if c = 46 then { s with dotIdx := i } else s
        scanLoop cs (i + 1) (if c = 32 then count + 1 else count) s

/-- `memcpy` to `tmp + p`, which has 32 bytes. -/
def copyTmp (tmp : Memory) (p : Int) (buffer : Memory) (src n : Int) : Except Fault Memory :=
  if n < 0 ∨ 32 < p + n then .error .badLength else .ok (store tmp p (bytesAt buffer src n.toNat))

/-- The digits of the third word, as `tmp` takes them, and what is read of them. -/
def readInteger (buffer tmp : Memory) (s : Indices) : Except Fault (BitVec 32) := do
  let tmp ← copyTmp tmp 0 buffer (s.startIdx + 1) (s.dotIdx - s.startIdx - 1)
  let tmp ← copyTmp tmp (s.dotIdx - s.startIdx - 1) buffer (s.dotIdx + 1) (s.endIdx - s.dotIdx - 1)
  if s.endIdx - s.startIdx < 0 ∨ 32 ≤ s.endIdx - s.startIdx then .error .badLength
  else
    let tmp := store tmp (s.endIdx - s.startIdx) [0]
    return stringToDecimalInt (some (charsWithin 32 tmp 0))

/-- The integer behind its decimal point, to four places; `none` where it does not fit the
`int` it is cast to. -/
def scaled (integer : BitVec 32) (places : Nat) : Option ℚ :=
  let fractionD := (fun x => binary64.round (x / 10))^[places] (binary64.round (integer.toNat * 1))
  let shifted := binary64.round (fractionD * 10000)
  if shifted < 2147483648 then some (binary64.round (⌊shifted⌋ / 10000)) else none

def indices (buffer : Memory) : Indices :=
  scanLoop (bytesAt buffer 0 4096) 0 0 { startIdx := -1, endIdx := -1, dotIdx := -1 }

/-- `get_zynq_temper` on what `xadc` prints; `buffer` and `tmp` are not initialised. -/
def getZynqTemper (output : List UInt8) (buffer tmp : Memory) : Except Fault (Option ℚ) := do
  let buffer := readOutput output buffer
  let s := indices buffer
  let integer ← readInteger buffer tmp s
  return scaled integer (s.endIdx - s.dotIdx - 1).toNat

/-- Two words, a number `D.F` and what stands behind it. -/
structure XadcOutput where
  w1 : List UInt8
  w2 : List UInt8
  integral : List (Fin 10)
  fractional : List (Fin 10)
  rest : List UInt8
  w1_noSpace : 32 ∉ w1
  w2_noSpace : 32 ∉ w2
  integral_ne_nil : integral ≠ []
  fractional_ne_nil : fractional ≠ []
  short : w1.length + w2.length + integral.length + fractional.length + 3 < 32
  small : value 10 ((integral ++ fractional).map Fin.val) < 2 ^ 32

namespace XadcOutput

variable (o : XadcOutput)

/-- Up to the third space. -/
def front : List UInt8 :=
  o.w1 ++ 32 :: (o.w2 ++ 32 :: (decimalText o.integral ++ 46 :: (decimalText o.fractional ++ [32])))

def text : List UInt8 := o.front ++ o.rest

def digits : Nat := o.integral.length + o.fractional.length

/-- The digits, read as one number. -/
def number : Nat := value 10 ((o.integral ++ o.fractional).map Fin.val)

/-- `D.F`. -/
def temperature : ℚ :=
  value 10 (o.integral.map Fin.val) +
    value 10 (o.fractional.map Fin.val) / 10 ^ o.fractional.length

/-- What stands in `tmp` between the digits and the terminator, which is written two places
behind them. -/
def leftover (tmp : Memory) : List UInt8 :=
  (bytesAt tmp o.digits 2).takeWhile fun c => c ≠ 0

/-- `tmp` held a NUL behind the digits, or characters that change nothing modulo 2^32. -/
def LeftClean (tmp : Memory) : Prop :=
  o.leftover tmp = [] ∨ 2 ^ 32 ∣ (10 ^ (o.leftover tmp).length - 1) * o.number +
    value 10 ((o.leftover tmp).map decimalTemp)

/-- The integer that is read is the number without its point. -/
def ReadExactly (buffer tmp : Memory) : Prop :=
  ∃ integer, readInteger (readOutput o.text buffer) tmp (indices (readOutput o.text buffer)) =
      .ok integer ∧ integer.toNat = o.number ∧
    (integer.toNat : ℚ) / 10 ^ o.fractional.length = o.temperature

end XadcOutput

section Scanning

variable {cs : List UInt8} {i count : Nat} {s : Indices}

theorem scanLoop_word {w : List UInt8} (hw : 32 ∉ w) :
    ∃ dotIdx, scanLoop (w ++ cs) i count s =
      scanLoop cs (i + w.length) count { s with dotIdx } := by
  induction w generalizing i s with
  | nil => exact ⟨s.dotIdx, rfl⟩
  | cons c w ih =>
      obtain ⟨hc, hw⟩ := not_or.mp (mt List.mem_cons.mpr hw)
      have hc' : c ≠ 32 := fun heq => hc heq.symm
      obtain ⟨dotIdx, hrest⟩ := ih hw (i := i + 1)
        (s := if c = 46 then { s with dotIdx := i } else s)
      refine ⟨dotIdx, ?_⟩
      rw [List.cons_append, scanLoop, if_neg (by simp [hc'])]
      simp only [hc', false_and, if_false, hrest]
      rw [List.length_cons, Nat.add_assoc, Nat.add_comm 1]
      split <;> rfl

theorem decimalText_range (digits : List (Fin 10)) : ∀ c ∈ decimalText digits, c ≠ 32 ∧ c ≠ 46 := by
  have hdigit : ∀ d : Fin 10, UInt8.ofNat (48 + d.val) ≠ 32 ∧ UInt8.ofNat (48 + d.val) ≠ 46 := by
    decide
  intro c hc
  obtain ⟨d, -, rfl⟩ := List.mem_map.mp hc
  exact hdigit d

theorem scanLoop_digits {w : List UInt8} (hw : ∀ c ∈ w, c ≠ 32 ∧ c ≠ 46) :
    scanLoop (w ++ cs) i count s = scanLoop cs (i + w.length) count s := by
  induction w generalizing i with
  | nil => rfl
  | cons c w ih =>
      obtain ⟨⟨hspace, hdot⟩, hw⟩ := List.forall_mem_cons.mp hw
      rw [List.cons_append, scanLoop, if_neg (by simp [hspace])]
      simp only [hspace, hdot, false_and, if_false, ih hw]
      rw [List.length_cons, Nat.add_assoc, Nat.add_comm 1]

theorem scanLoop_dot : scanLoop (46 :: cs) i count s =
    scanLoop cs (i + 1) count { s with dotIdx := i } := by
  simp [scanLoop]

theorem scanLoop_space : scanLoop (32 :: cs) i 0 s = scanLoop cs (i + 1) 1 s := by
  simp [scanLoop]

theorem scanLoop_secondSpace : scanLoop (32 :: cs) i 1 s =
    scanLoop cs (i + 1) 2 { s with startIdx := i } := by
  simp [scanLoop]

theorem scanLoop_thirdSpace : scanLoop (32 :: cs) i 2 s = { s with endIdx := i } := by
  simp [scanLoop]

theorem scanLoop_front (o : XadcOutput) (cs : List UInt8) (s : Indices) :
    scanLoop (o.front ++ cs) 0 0 s =
      { startIdx := (o.w1.length + 1 + o.w2.length : Nat)
        dotIdx := (o.w1.length + 1 + o.w2.length + 1 + o.integral.length : Nat)
        endIdx := (o.w1.length + 1 + o.w2.length + 1 + o.integral.length + 1 +
          o.fractional.length : Nat) } := by
  have hfront : o.front ++ cs = o.w1 ++ 32 :: (o.w2 ++ 32 :: (decimalText o.integral ++
      46 :: (decimalText o.fractional ++ 32 :: cs))) := by
    simp [XadcOutput.front]
  have hword : ∀ {w : List UInt8}, 32 ∉ w → ∀ cs i count s, ∃ dotIdx,
      scanLoop (w ++ cs) i count s = scanLoop cs (i + w.length) count { s with dotIdx } :=
    fun hw _ _ _ _ => scanLoop_word hw
  obtain ⟨dotIdx, hfirst⟩ := hword o.w1_noSpace (32 :: (o.w2 ++ 32 :: (decimalText o.integral ++
    46 :: (decimalText o.fractional ++ 32 :: cs)))) 0 0 s
  obtain ⟨dotIdx', hsecond⟩ := hword o.w2_noSpace (32 :: (decimalText o.integral ++
    46 :: (decimalText o.fractional ++ 32 :: cs))) (0 + o.w1.length + 1) 1 { s with dotIdx }
  rw [hfront, hfirst, scanLoop_space, hsecond, scanLoop_secondSpace,
    scanLoop_digits (decimalText_range _), scanLoop_dot, scanLoop_digits (decimalText_range _),
    scanLoop_thirdSpace]
  simp only [length_decimalText, Nat.zero_add]

end Scanning

section Copies

variable (o : XadcOutput) (buffer tmp : Memory)

theorem length_front : o.front.length =
    o.w1.length + 1 + o.w2.length + 1 + o.integral.length + 1 + o.fractional.length + 1 := by
  simp [XadcOutput.front, length_decimalText]
  omega

theorem bytesAt_front : bytesAt (readOutput o.text buffer) 0 o.front.length = o.front := by
  have hlen := length_front o
  have hshort := o.short
  have htake : o.text.take 4096 = o.front ++ o.rest.take (4096 - o.front.length) := by
    rw [XadcOutput.text, List.take_append, List.take_of_length_le (by omega)]
  rw [readOutput, bytesAt_store_disjoint (.inl (by omega)), htake]
  exact bytesAt_store_left buffer 0 _ _

theorem indices_readOutput : indices (readOutput o.text buffer) =
    { startIdx := (o.w1.length + 1 + o.w2.length : Nat)
      dotIdx := (o.w1.length + 1 + o.w2.length + 1 + o.integral.length : Nat)
      endIdx := (o.w1.length + 1 + o.w2.length + 1 + o.integral.length + 1 +
        o.fractional.length : Nat) } := by
  have hlen := length_front o
  have hshort := o.short
  have hsplit : bytesAt (readOutput o.text buffer) 0 4096 = o.front ++
      bytesAt (readOutput o.text buffer) (0 + o.front.length) (4096 - o.front.length) := by
    rw [← bytesAt_front o buffer, bytesAt_length, ← bytesAt_add]
    congr 1
    omega
  rw [indices, hsplit]
  exact scanLoop_front o _ _

theorem bytesAt_integral : bytesAt (readOutput o.text buffer)
    ((o.w1.length + 1 + o.w2.length : Nat) + 1) o.integral.length = decimalText o.integral := by
  have hfront : o.front = (o.w1 ++ 32 :: (o.w2 ++ [32])) ++ (decimalText o.integral ++
      46 :: (decimalText o.fractional ++ [32])) := by
    simp [XadcOutput.front]
  have hbytes := bytesAt_front o buffer
  rw [hfront] at hbytes
  have hdigits := bytesAt_middle hbytes
  rw [length_decimalText] at hdigits
  rw [← hdigits]
  congr 1
  simp
  omega

theorem bytesAt_fractional : bytesAt (readOutput o.text buffer)
    ((o.w1.length + 1 + o.w2.length + 1 + o.integral.length : Nat) + 1) o.fractional.length =
      decimalText o.fractional := by
  have hfront : o.front = (o.w1 ++ 32 :: (o.w2 ++ 32 :: (decimalText o.integral ++ [46]))) ++
      (decimalText o.fractional ++ [32]) := by
    simp [XadcOutput.front]
  have hbytes := bytesAt_front o buffer
  rw [hfront] at hbytes
  have hdigits := bytesAt_middle hbytes
  rw [length_decimalText] at hdigits
  rw [← hdigits]
  congr 1
  simp [length_decimalText]
  omega

/-- The two copies leave the digits in `tmp`, and what was behind them. -/
def copied : Memory :=
  store (store (store tmp 0 (decimalText o.integral)) o.integral.length
    (decimalText o.fractional)) (o.digits + 2 : Nat) [0]

theorem bytesAt_copied : ∃ rest, bytesAt (copied o tmp) 0 32 =
    (decimalText (o.integral ++ o.fractional) ++ bytesAt tmp o.digits 2) ++ 0 :: rest := by
  have hshort := o.short
  have hcount : o.digits = o.integral.length + o.fractional.length := rfl
  have hD := length_decimalText o.integral
  have hF := length_decimalText o.fractional
  have hfirst : bytesAt (store tmp 0 (decimalText o.integral)) 0 o.integral.length =
      decimalText o.integral := by
    rw [← hD]
    exact bytesAt_store tmp 0 _
  have hdigits : bytesAt (copied o tmp) 0 o.digits = decimalText (o.integral ++ o.fractional) := by
    rw [copied, bytesAt_store_disjoint (.inl (by omega)), hcount, ← hF, bytesAt_store_append,
      hfirst, decimalText_append]
  have hkept : bytesAt (copied o tmp) o.digits 2 = bytesAt tmp o.digits 2 := by
    rw [copied, bytesAt_store_disjoint (.inl (by omega)), bytesAt_store_disjoint (.inr (by omega)),
      bytesAt_store_disjoint (.inr (by omega))]
  have hnul : bytesAt (copied o tmp) (o.digits + 2 : Nat) 1 = [0] := bytesAt_store _ _ [0]
  have hsplit : 32 = o.digits + (2 + (1 + (29 - o.digits))) := by omega
  refine ⟨bytesAt (copied o tmp) (o.digits + 2 + 1) (29 - o.digits), ?_⟩
  calc bytesAt (copied o tmp) 0 32
      = bytesAt (copied o tmp) 0 o.digits ++ (bytesAt (copied o tmp) o.digits 2 ++
          (bytesAt (copied o tmp) (o.digits + 2 : Nat) 1 ++
            bytesAt (copied o tmp) (o.digits + 2 + 1) (29 - o.digits))) := by
        conv_lhs => rw [hsplit]
        simp [bytesAt_add]
    _ = _ := by
        rw [hdigits, hkept, hnul]
        simp

theorem charsWithin_copied : charsWithin 32 (copied o tmp) 0 =
    decimalText (o.integral ++ o.fractional) ++ o.leftover tmp := by
  obtain ⟨rest, hbytes⟩ := bytesAt_copied o tmp
  rw [charsWithin_of_bytes hbytes, List.takeWhile_append_of_pos, XadcOutput.leftover]
  simpa using decimalText_ne_zero _

theorem readInteger_eq : readInteger (readOutput o.text buffer) tmp
    (indices (readOutput o.text buffer)) =
      .ok (stringToDecimalInt (some (decimalText (o.integral ++ o.fractional) ++
        o.leftover tmp))) := by
  have hshort := o.short
  have hfirst : ((o.w1.length + 1 + o.w2.length + 1 + o.integral.length : Nat) : Int) -
      (o.w1.length + 1 + o.w2.length : Nat) - 1 = o.integral.length := by omega
  have hsecond : ((o.w1.length + 1 + o.w2.length + 1 + o.integral.length + 1 +
      o.fractional.length : Nat) : Int) -
        (o.w1.length + 1 + o.w2.length + 1 + o.integral.length : Nat) - 1 =
      o.fractional.length := by omega
  have hcount : o.digits = o.integral.length + o.fractional.length := rfl
  have hlast : ((o.w1.length + 1 + o.w2.length + 1 + o.integral.length + 1 +
      o.fractional.length : Nat) : Int) - (o.w1.length + 1 + o.w2.length : Nat) =
        (o.digits + 2 : Nat) := by omega
  have hcopy : ∀ (m : Memory) (p src : Int) (n : Nat), p + n ≤ 32 →
      copyTmp m p (readOutput o.text buffer) src n =
        .ok (store m p (bytesAt (readOutput o.text buffer) src n)) := by
    intro m p src n hn
    rw [copyTmp, if_neg (by omega), Int.toNat_natCast]
  rw [readInteger, indices_readOutput]
  dsimp only
  rw [hfirst, hsecond, hlast, hcopy _ _ _ _ (by omega), bytesAt_integral]
  show (copyTmp _ _ _ _ _ >>= _) = _
  rw [hcopy _ _ _ _ (by omega), bytesAt_fractional]
  show (if _ then _ else _) = _
  rw [if_neg (by omega), ← charsWithin_copied]
  rfl

end Copies

section Reading

variable (o : XadcOutput) (buffer tmp : Memory)

theorem number_div : (o.number : ℚ) / 10 ^ o.fractional.length = o.temperature := by
  rw [XadcOutput.number, XadcOutput.temperature, List.map_append, value_append, List.length_map]
  push_cast
  rw [add_div, mul_div_assoc, div_self (by positivity), mul_one]

theorem toNat_integer : (stringToDecimalInt (some (decimalText (o.integral ++ o.fractional) ++
    o.leftover tmp))).toNat =
      (o.number * 10 ^ (o.leftover tmp).length + value 10 ((o.leftover tmp).map decimalTemp)) %
        2 ^ 32 := by
  have hshort := o.short
  have hleft : (o.leftover tmp).length ≤ 2 := by
    have hle := (List.takeWhile_prefix (fun c : UInt8 => decide (c ≠ 0))
      (l := bytesAt tmp o.digits 2)).length_le
    rwa [bytesAt_length] at hle
  have hne : decimalText (o.integral ++ o.fractional) ++ o.leftover tmp ≠ [] := by
    simp [decimalText, o.integral_ne_nil]
  rw [stringToDecimalInt_of_lt hne, List.map_append, value_append, decimalTemp_decimalText,
    List.length_map]
  · rfl
  · rw [List.length_append, length_decimalText, List.length_append]
    omega

theorem getZynqTemper_eq {integer : BitVec 32}
    (h : readInteger (readOutput o.text buffer) tmp (indices (readOutput o.text buffer)) =
      .ok integer) :
    getZynqTemper o.text buffer tmp = .ok (scaled integer o.fractional.length) := by
  have hplaces : ((indices (readOutput o.text buffer)).endIdx -
      (indices (readOutput o.text buffer)).dotIdx - 1).toNat = o.fractional.length := by
    rw [indices_readOutput]
    dsimp only
    omega
  simp [getZynqTemper, h, hplaces, bind, Except.bind, pure, Except.pure]

theorem add_mod_eq_left_iff {n m : Nat} (hn : n < 2 ^ 32) :
    (n + m) % 2 ^ 32 = n ↔ 2 ^ 32 ∣ m := by
  constructor
  · intro hmod
    omega
  · rintro ⟨k, rfl⟩
    rw [Nat.add_mul_mod_self_left, Nat.mod_eq_of_lt hn]

/-- What is read is the number, and then what the leftover characters add to it. -/
theorem toNat_integer_eq_iff : (stringToDecimalInt (some (decimalText
    (o.integral ++ o.fractional) ++ o.leftover tmp))).toNat = o.number ↔ o.LeftClean tmp := by
  have hsmall : o.number < 2 ^ 32 := o.small
  have hpos : 1 ≤ 10 ^ (o.leftover tmp).length := Nat.one_le_pow _ _ (by decide)
  have hsplit : o.number * 10 ^ (o.leftover tmp).length =
      o.number + (10 ^ (o.leftover tmp).length - 1) * o.number := by
    rw [Nat.sub_mul, one_mul, mul_comm, Nat.add_sub_cancel' (Nat.le_mul_of_pos_left _ hpos)]
  have hempty : o.leftover tmp = [] → 2 ^ 32 ∣ (10 ^ (o.leftover tmp).length - 1) * o.number +
      value 10 ((o.leftover tmp).map decimalTemp) := by
    intro hnil
    simp [hnil, value]
  rw [toNat_integer, hsplit, Nat.add_assoc, add_mod_eq_left_iff hsmall, XadcOutput.LeftClean]
  exact (or_iff_right_of_imp hempty).symm

end Reading

theorem zynq_integer_exact_iff (o : XadcOutput) (buffer tmp : Memory) :
    o.ReadExactly buffer tmp ↔ o.LeftClean tmp := by
  rw [← toNat_integer_eq_iff, XadcOutput.ReadExactly, readInteger_eq]
  constructor
  · rintro ⟨integer, hok, hnumber, -⟩
    obtain rfl := Except.ok.inj hok
    exact hnumber
  · intro hnumber
    exact ⟨_, rfl, hnumber, by rw [hnumber, number_div]⟩

/-- Two nines that were left in `tmp` are read as digits: of `a b 4.2 `, 4299 for 42. -/
theorem leftover_nines_read : ∃ o : XadcOutput,
    o.text = [97, 32, 98, 32, 52, 46, 50, 32] ∧ o.number = 42 ∧
      readInteger (readOutput o.text fun _ => 0) (fun _ => 57)
        (indices (readOutput o.text fun _ => 0)) = .ok 4299 ∧
      ¬ o.ReadExactly (fun _ => 0) fun _ => 57 := by
  let o : XadcOutput :=
    { w1 := [97], w2 := [98], integral := [4], fractional := [2], rest := []
      w1_noSpace := by decide
      w2_noSpace := by decide
      integral_ne_nil := by decide
      fractional_ne_nil := by decide
      short := by decide
      small := by decide }
  have hread : readInteger (readOutput o.text fun _ => 0) (fun _ => 57)
      (indices (readOutput o.text fun _ => 0)) = .ok 4299 := by
    rw [readInteger_eq]
    refine congrArg Except.ok (BitVec.eq_of_toNat_eq ?_)
    rw [toNat_integer]
    decide
  refine ⟨o, rfl, rfl, hread, ?_⟩
  rintro ⟨integer, hok, hnumber, -⟩
  obtain rfl := Except.ok.inj (hread.symm.trans hok)
  exact absurd hnumber (by decide)

end GwWeb.ZynqTemper
