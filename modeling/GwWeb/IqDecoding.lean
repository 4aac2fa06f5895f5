import Mathlib.Data.Fin.VecNotation
import Mathlib.Tactic.IntervalCases
import GwWeb.BinaryFloat
import GwWeb.BoundedArrays
import GwWeb.CsiDisplay

/-!
`parse_IQ_from_net`, on a little-endian machine: its two loops over the local array
`IQ_stream`, with the arithmetic in `float` and `double`.
-/

namespace GwWeb.IqDecoding

open BinaryFloat
open BoundedArrays

/-- `swap`: the two bytes change places. -/
def swap (a : Fin 2 → UInt8) : Fin 2 → UInt8 := ![a 1, a 0]

/-- What `tranform` computes of a 16-bit value: in `double`, and then in a `float`. -/
def valueD (valueI : Int) : ℚ :=
  binary32.round (binary64.round (binary64.round (valueI / 1) / 32768))

/-- `tranform`: `a` is read as an `unsigned short`, the low byte first. -/
def tranform (input : Fin 2 → UInt8) : ℚ :=
  let a := swap input
  let temp : Int := (a 0).toNat + 256 * (a 1).toNat
  valueD (if temp > 32767 then temp - 65536 else temp)

/-- The first loop of `parse_IQ_from_net`, with its locals. -/
structure Stream where
  inputC : Fin 2 → UInt8
  counter : Nat
  iqStream : Fin 512 → ℚ
  streamCounter : Nat

variable {n : Nat}

/-- One iteration of the first loop. -/
def takeByte (buf : Fin n → UInt8) (i : Nat) (s : Stream) : Option Stream := do
  let inputC ← write s.inputC s.counter (← read buf i)
  if s.counter + 1 = 2 then do
    let tempD := tranform inputC
    let iqStream ← write s.iqStream s.streamCounter (binary64.round tempD)
    return { inputC, counter := 0, iqStream, streamCounter := s.streamCounter + 1 }
  else return { s with inputC, counter := s.counter + 1 }

def withReal (inIQ : Fin 256 → ℚ × ℚ) (k : Nat) (x : ℚ) : Fin 256 → ℚ × ℚ := fun m =>
  if m.val = k then (x, (inIQ m).2) else inIQ m

def withImag (inIQ : Fin 256 → ℚ × ℚ) (k : Nat) (x : ℚ) : Fin 256 → ℚ × ℚ := fun m =>
  if m.val = k then ((inIQ m).1, x) else inIQ m

/-- `in_IQ[k][0] = x`, a `double` in a `float`. -/
def setReal (inIQ : Fin 256 → ℚ × ℚ) (k : Nat) (x : ℚ) : Option (Fin 256 → ℚ × ℚ) :=
  if k < 256 then some (withReal inIQ k (binary32.round x)) else none

/-- `in_IQ[k][1] = x`. -/
def setImag (inIQ : Fin 256 → ℚ × ℚ) (k : Nat) (x : ℚ) : Option (Fin 256 → ℚ × ℚ) :=
  if k < 256 then some (withImag inIQ k (binary32.round x)) else none

/-- The second loop: sixteen values of `IQ_stream` for eight elements of `in_IQ`. -/
def copyBlock (iqStream : Fin 512 → ℚ) (i : Nat) (s : Nat × (Fin 256 → ℚ × ℚ)) :
    Option (Nat × (Fin 256 → ℚ × ℚ)) := do
  let streamCounter := s.1
  let inIQ ← setReal s.2 streamCounter (← read iqStream i)
  let inIQ ← setReal inIQ (streamCounter + 1) (← read iqStream (i + 1))
  let inIQ ← setReal inIQ (streamCounter + 2) (← read iqStream (i + 2))
  let inIQ ← setReal inIQ (streamCounter + 3) (← read iqStream (i + 3))
  let inIQ ← setReal inIQ (streamCounter + 4) (← read iqStream (i + 4))
  let inIQ ← setReal inIQ (streamCounter + 5) (← read iqStream (i + 5))
  let inIQ ← setReal inIQ (streamCounter + 6) (← read iqStream (i + 6))
  let inIQ ← setReal inIQ (streamCounter + 7) (← read iqStream (i + 7))
  let inIQ ← setImag inIQ streamCounter (← read iqStream (i + 8))
  let inIQ ← setImag inIQ (streamCounter + 1) (← read iqStream (i + 9))
  let inIQ ← setImag inIQ (streamCounter + 2) (← read iqStream (i + 10))
  let inIQ ← setImag inIQ (streamCounter + 3) (← read iqStream (i + 11))
  let inIQ ← setImag inIQ (streamCounter + 4) (← read iqStream (i + 12))
  let inIQ ← setImag inIQ (streamCounter + 5) (← read iqStream (i + 13))
  let inIQ ← setImag inIQ (streamCounter + 6) (← read iqStream (i + 14))
  let inIQ ← setImag inIQ (streamCounter + 7) (← read iqStream (i + 15))
  return (streamCounter + 8, inIQ)

/-- `parse_IQ_from_net` on the first `len` bytes of `buf`; `input_c` and `IQ_stream` are
not initialised. -/
def parseIQFromNet (buf : Fin n → UInt8) (len : Nat) (inputC : Fin 2 → UInt8)
    (iqStream : Fin 512 → ℚ) (inIQ : Fin 256 → ℚ × ℚ) : Option (Fin 256 → ℚ × ℚ) := do
  let s ← forLoop (takeByte buf) 0 1 len { inputC, counter := 0, iqStream, streamCounter := 0 }
  let (_, inIQ) ← forLoop (copyBlock s.iqStream) 0 16 32 (0, inIQ)
  return inIQ

/-- `s(k)`: the big-endian two's-complement number of two bytes. -/
def sampleOf (high low : UInt8) : Int := (high.toBitVec ++ low.toBitVec).toInt

theorem sampleOf_eq (high low : UInt8) :
    sampleOf high low =
      let temp : Int := low.toNat + 256 * high.toNat
      if temp > 32767 then temp - 65536 else temp := by
  have hnat : (high.toBitVec ++ low.toBitVec).toNat = low.toNat + 256 * high.toNat := by
    rw [BitVec.toNat_append, ← Nat.shiftLeft_add_eq_or_of_lt low.toBitVec.isLt, Nat.shiftLeft_eq,
      Nat.add_comm, Nat.mul_comm]
    rfl
  rw [sampleOf, BitVec.toInt_eq_toNat_cond, hnat]
  dsimp only
  split <;> split <;> omega

theorem sampleOf_bounds (high low : UInt8) :
    -32768 ≤ sampleOf high low ∧ sampleOf high low ≤ 32767 := by
  have hle := BitVec.le_toInt (high.toBitVec ++ low.toBitVec)
  have hlt := BitVec.toInt_lt (x := high.toBitVec ++ low.toBitVec)
  unfold sampleOf
  omega

section Exact

variable {v : Int}

theorem representable_sample {f : Format} (hp : 16 ≤ f.precision) (he : f.minExponent ≤ -15)
    (hlow : -32768 ≤ v) (hhigh : v ≤ 32767) : Representable f (v / 32768) := by
  refine ⟨v, -15, ?_, he, ?_⟩
  · calc |v| ≤ 2 ^ 15 := abs_le.mpr ⟨by omega, by omega⟩
      _ < 2 ^ 16 := by norm_num
      _ ≤ 2 ^ f.precision := pow_le_pow_right₀ (by norm_num) hp
  · norm_num [div_eq_mul_inv]

theorem valueD_eq (hlow : -32768 ≤ v) (hhigh : v ≤ 32767) : valueD v = v / 32768 := by
  have hdouble : Representable binary64 (v / 32768) :=
    representable_sample (by decide) (by decide) hlow hhigh
  have hfloat : Representable binary32 (v / 32768) :=
    representable_sample (by decide) (by decide) hlow hhigh
  have hint : Representable binary64 v :=
    representable_intCast (lt_of_le_of_lt (abs_le.mpr ⟨by omega, hhigh.trans (by norm_num)⟩ :
      |v| ≤ 32768) (by norm_num [binary64])) (by decide)
  rw [valueD, div_one, round_of_representable hint, round_of_representable hdouble,
    round_of_representable hfloat]

theorem tranform_eq (high low : UInt8) :
    tranform ![high, low] = (sampleOf high low : ℚ) / 32768 := by
  have hbounds := sampleOf_bounds high low
  rw [← valueD_eq hbounds.1 hbounds.2, sampleOf_eq]
  rfl

end Exact

section Loops

variable {buf : Fin n → UInt8} {i : Nat} {s : Stream}

theorem takeByte_first (hi : i < n) (hcounter : s.counter = 0) :
    takeByte buf i s = some { s with
      inputC := Function.update s.inputC 0 (buf ⟨i, hi⟩)
      counter := 1 } := by
  simp [takeByte, hcounter, read_of_lt, hi, write_of_lt]

theorem takeByte_second (hi : i < n) (hcounter : s.counter = 1) (hstream : s.streamCounter < 512) :
    takeByte buf i s = some
      { inputC := Function.update s.inputC 1 (buf ⟨i, hi⟩)
        counter := 0
        iqStream := Function.update s.iqStream ⟨s.streamCounter, hstream⟩
          (binary64.round (tranform (Function.update s.inputC 1 (buf ⟨i, hi⟩))))
        streamCounter := s.streamCounter + 1 } := by
  simp [takeByte, hcounter, read_of_lt, hi, write_of_lt, hstream]

/-- What the first loop has done behind `i` bytes. -/
structure Streamed (buf : Fin n → UInt8) (i : Nat) (s : Stream) : Prop where
  counter : s.counter = i % 2
  streamCounter : s.streamCounter = i / 2
  waiting : ∀ e : Fin n, e.val + 1 = i → i % 2 = 1 → s.inputC 0 = buf e
  values : ∀ (m : Fin 512) (high low : Fin n), high.val = 2 * m → low.val = 2 * m + 1 →
    2 * m + 1 < i → s.iqStream m = (sampleOf (buf high) (buf low) : ℚ) / 32768

theorem representable_sampleOf {f : Format} (hp : 16 ≤ f.precision) (he : f.minExponent ≤ -15)
    (high low : UInt8) : Representable f ((sampleOf high low : ℚ) / 32768) :=
  representable_sample hp he (sampleOf_bounds high low).1 (sampleOf_bounds high low).2

theorem Streamed.next (h : Streamed buf i s) (hi : i < n) (hn : n ≤ 1024) :
    ∃ s', takeByte buf (0 + 1 * i) s = some s' ∧ Streamed buf (i + 1) s' := by
  have hstream := h.streamCounter
  have hlt : s.streamCounter < 512 := by omega
  rw [Nat.one_mul, Nat.zero_add]
  rcases Nat.mod_two_eq_zero_or_one i with heven | hodd
  · refine ⟨_, takeByte_first hi (h.counter.trans heven), ?_, ?_, ?_, ?_⟩
    · show 1 = (i + 1) % 2
      omega
    · show s.streamCounter = (i + 1) / 2
      omega
    · intro e he _
      have hlast : e = ⟨i, hi⟩ := Fin.ext (Nat.succ.inj he)
      show Function.update s.inputC 0 (buf ⟨i, hi⟩) 0 = buf e
      rw [Function.update_self, hlast]
    · exact fun m high low hhigh hlow hm => h.values m high low hhigh hlow (by omega)
  · refine ⟨_, takeByte_second hi (h.counter.trans hodd) hlt, ?_, ?_, ?_, ?_⟩
    · show 0 = (i + 1) % 2
      omega
    · show s.streamCounter + 1 = (i + 1) / 2
      omega
    · exact fun e _ heven => absurd heven (by omega)
    · intro m high low hhigh hlow hm
      rcases eq_or_ne m ⟨s.streamCounter, hlt⟩ with rfl | hne
      · have hlast : low = ⟨i, hi⟩ := Fin.ext (by dsimp only at hlow ⊢; omega)
        have hfirst := h.waiting high (by dsimp only at hhigh; omega) hodd
        have hinput : Function.update s.inputC 1 (buf ⟨i, hi⟩) = ![buf high, buf low] := by
          funext e
          fin_cases e
          · exact hfirst
          · rw [hlast]
            rfl
        dsimp only
        rw [Function.update_self, hinput, tranform_eq]
        exact round_of_representable (representable_sampleOf (by decide) (by decide) _ _)
      · have hval : m.val ≠ s.streamCounter := fun heq => hne (Fin.ext heq)
        dsimp only
        rw [Function.update_of_ne hne]
        exact h.values m high low hhigh hlow (by omega)

theorem streamed_start (inputC : Fin 2 → UInt8) (iqStream : Fin 512 → ℚ) :
    Streamed buf 0 { inputC, counter := 0, iqStream, streamCounter := 0 } := by
  refine ⟨rfl, rfl, fun e he => ?_, fun m high low _ _ hm => ?_⟩
  · exact absurd he (Nat.succ_ne_zero _)
  · exact absurd hm (Nat.not_lt_zero _)

/-- Sixteen values of `IQ_stream` from `i` on, as eight elements from `k` on. -/
def withBlock (iqStream : Fin 512 → ℚ) (i k : Nat) (inIQ : Fin 256 → ℚ × ℚ) :
    Fin 256 → ℚ × ℚ := fun m =>
  if h : k ≤ m ∧ m < k + 8 ∧ i + 15 < 512 then
    (binary32.round (iqStream ⟨i + (m - k), by omega⟩),
      binary32.round (iqStream ⟨i + (m - k) + 8, by omega⟩))
  else inIQ m

theorem setReal_of_lt (inIQ : Fin 256 → ℚ × ℚ) {k : Nat} (h : k < 256) (x : ℚ) :
    setReal inIQ k x = some (withReal inIQ k (binary32.round x)) :=
  if_pos h

theorem setImag_of_lt (inIQ : Fin 256 → ℚ × ℚ) {k : Nat} (h : k < 256) (x : ℚ) :
    setImag inIQ k x = some (withImag inIQ k (binary32.round x)) :=
  if_pos h

theorem copyBlock_eq (iqStream : Fin 512 → ℚ) (inIQ : Fin 256 → ℚ × ℚ) {k : Nat}
    (hi : i + 15 < 512) (hk : k + 7 < 256) :
    copyBlock iqStream i (k, inIQ) = some (k + 8, withBlock iqStream i k inIQ) := by
  simp (disch := omega) only [copyBlock, setReal_of_lt, setImag_of_lt, read_of_lt,
    Option.bind_eq_bind, Option.bind_some]
  refine congrArg some (congrArg (Prod.mk (k + 8)) (funext fun m => ?_))
  by_cases hm : k ≤ m ∧ m < k + 8
  · -- one of the eight lanes, which is written twice
    obtain ⟨j, hj⟩ := Nat.exists_eq_add_of_le hm.1
    have hlane : j < 8 := by omega
    have hjk : m.val - k = j := by omega
    rw [withBlock, dif_pos ⟨hm.1, hm.2, hi⟩]
    simp only [hjk]
    interval_cases j <;> simp [withReal, withImag, hj]
  · have hfirst : m.val ≠ k := by omega
    have hother : ∀ j < 8, m.val ≠ k + j := by omega
    rw [withBlock, dif_neg fun h => hm ⟨h.1, h.2.1⟩]
    simp [withReal, withImag, hfirst, hother]

theorem realPos_lt (m : Fin 256) : 16 * (m.val / 8) + m.val % 8 < 512 := by
  omega

theorem imagPos_lt (m : Fin 256) : 16 * (m.val / 8) + m.val % 8 + 8 < 512 := by
  omega

/-- Element `m` of `in_IQ`. -/
def element (iqStream : Fin 512 → ℚ) (m : Fin 256) : ℚ × ℚ :=
  (binary32.round (iqStream ⟨16 * (m / 8) + m % 8, realPos_lt m⟩),
    binary32.round (iqStream ⟨16 * (m / 8) + m % 8 + 8, imagPos_lt m⟩))

/-- What the second loop has done behind `b` blocks. -/
structure Copied (iqStream : Fin 512 → ℚ) (b : Nat) (s : Nat × (Fin 256 → ℚ × ℚ)) : Prop where
  streamCounter : s.1 = 8 * b
  elements : ∀ m : Fin 256, m < 8 * b → s.2 m = element iqStream m

theorem Copied.next {iqStream : Fin 512 → ℚ} {b : Nat} {s : Nat × (Fin 256 → ℚ × ℚ)}
    (h : Copied iqStream b s) (hb : b < 32) :
    ∃ s', copyBlock iqStream (0 + 16 * b) s = some s' ∧ Copied iqStream (b + 1) s' := by
  have hcounter := h.streamCounter
  refine ⟨_, copyBlock_eq iqStream s.2 (by omega) (by omega), ?_, fun m hm => ?_⟩
  · show s.1 + 8 = 8 * (b + 1)
    omega
  · show withBlock iqStream (0 + 16 * b) s.1 s.2 m = element iqStream m
    rcases Nat.lt_or_ge m (8 * b) with hold | hnew
    · rw [withBlock, dif_neg (by omega), h.elements m hold]
    · have hblock : m.val / 8 = b := by omega
      have hlane : m.val - s.1 = m.val % 8 := by omega
      rw [withBlock, dif_pos ⟨by omega, by omega, by omega⟩]
      simp only [element, hblock, hlane, Nat.zero_add]

end Loops

theorem highPos_lt (k : Fin 512) : 2 * k.val < 1024 := by
  omega

theorem lowPos_lt (k : Fin 512) : 2 * k.val + 1 < 1024 := by
  omega

/-- `s(k)` of a buffer. -/
def sampleAt (buf : Fin 1024 → UInt8) (k : Fin 512) : Int :=
  sampleOf (buf ⟨2 * k, highPos_lt k⟩) (buf ⟨2 * k + 1, lowPos_lt k⟩)

/-- The sample behind the real (0) or imaginary (1) part of lane `j` of block `b`. -/
def samplePos (x : Fin 32 × Fin 8 × Fin 2) : Fin 512 :=
  ⟨16 * x.1 + 8 * x.2.2 + x.2.1, by omega⟩

/-- The value that is sample `j` of block `b`. -/
def laneOf (b : Fin 32) (j : Fin 8) : Fin 256 := ⟨8 * b + j, by omega⟩

theorem samplePos_bijective : Function.Bijective samplePos := by
  constructor
  · rintro ⟨b, j, part⟩ ⟨b', j', part'⟩ h
    have hpos : 16 * b.val + 8 * part.val + j.val = 16 * b'.val + 8 * part'.val + j'.val :=
      congrArg Fin.val h
    simp only [Prod.mk.injEq, Fin.ext_iff]
    omega
  · intro k
    refine ⟨(⟨k / 16, by omega⟩, ⟨k % 8, by omega⟩, ⟨k / 8 % 2, by omega⟩), Fin.ext ?_⟩
    show 16 * (k.val / 16) + 8 * (k.val / 8 % 2) + k.val % 8 = k.val
    omega

/-- Element `m`, from the two samples that belong to it. -/
def decoded (buf : Fin 1024 → UInt8) (m : Fin 256) : ℚ × ℚ :=
  ((sampleAt buf ⟨16 * (m / 8) + m % 8, realPos_lt m⟩ : ℚ) / 32768,
    (sampleAt buf ⟨16 * (m / 8) + m % 8 + 8, imagPos_lt m⟩ : ℚ) / 32768)

theorem element_eq_decoded {buf : Fin 1024 → UInt8} {s : Stream} (h : Streamed buf 1024 s)
    (m : Fin 256) : element s.iqStream m = decoded buf m := by
  have hvalue : ∀ k : Fin 512, binary32.round (s.iqStream k) = (sampleAt buf k : ℚ) / 32768 := by
    intro k
    rw [h.values k ⟨2 * k, by omega⟩ ⟨2 * k + 1, by omega⟩ rfl rfl (by omega)]
    exact round_of_representable (representable_sampleOf (by decide) (by decide) _ _)
  rw [element, hvalue, hvalue, decoded]

/-- The two loops: no index leaves its array, and nothing of the locals is left. -/
theorem parseIQFromNet_eq (buf : Fin 1024 → UInt8) (inputC : Fin 2 → UInt8)
    (iqStream : Fin 512 → ℚ) (inIQ : Fin 256 → ℚ × ℚ) :
    parseIQFromNet buf 1024 inputC iqStream inIQ = some (decoded buf) := by
  obtain ⟨s, hstream, hs⟩ := forLoop_invariant (Streamed buf) (streamed_start inputC iqStream)
    fun i s hi h => h.next hi (Nat.le_refl _)
  obtain ⟨t, hcopy, ht⟩ := forLoop_invariant (Copied s.iqStream)
    (show Copied s.iqStream 0 (0, inIQ) from ⟨rfl, fun _ hm => absurd hm (Nat.not_lt_zero _)⟩)
    fun b t hb h => h.next hb
  have hall : t.2 = decoded buf := by
    funext m
    rw [ht.elements m m.isLt, element_eq_decoded hs]
  simp [parseIQFromNet, hstream, hcopy, hall]

theorem parseIQFromNet_eq_display (ops : CsiDisplay.FloatOps ℚ) (hops : ops.sample = valueD)
    (buf : Fin 1024 → UInt8) (inputC : Fin 2 → UInt8) (iqStream : Fin 512 → ℚ)
    (inIQ : Fin 256 → ℚ × ℚ) :
    parseIQFromNet buf 1024 inputC iqStream inIQ = some (CsiDisplay.parseIQFromNet ops buf) := by
  have htranform : ∀ high low : UInt8, CsiDisplay.tranform ops high low =
      (sampleOf high low : ℚ) / 32768 := by
    intro high low
    rw [← valueD_eq (sampleOf_bounds high low).1 (sampleOf_bounds high low).2, ← hops,
      sampleOf_eq, CsiDisplay.tranform, Int.add_comm]
  have hsample : ∀ k : Fin 512, CsiDisplay.iqStream ops buf k = (sampleAt buf k : ℚ) / 32768 :=
    fun k => htranform _ _
  rw [parseIQFromNet_eq]
  congr 1
  funext m
  rw [CsiDisplay.parseIQFromNet, hsample, hsample, decoded]

/-- The bytes of the samples that the elements come from. -/
def recoverBuf (inIQ : Fin 256 → ℚ × ℚ) (e : Fin 1024) : UInt8 :=
  let k := e.val / 2
  let m := inIQ ⟨8 * (k / 16) + k % 8, by omega⟩
  let sample := ⌊(if k / 8 % 2 = 0 then m.1 else m.2) * 32768⌋ % 65536
  UInt8.ofNat (if e.val % 2 = 0 then sample / 256 else sample % 256).toNat

theorem sampleOf_emod (high low : UInt8) :
    sampleOf high low % 65536 = 256 * high.toNat + low.toNat := by
  have hlow := low.toNat_lt
  have hhigh := high.toNat_lt
  rw [sampleOf_eq]
  dsimp only
  split <;> omega

theorem recoverBuf_decoded (buf : Fin 1024 → UInt8) : recoverBuf (decoded buf) = buf := by
  funext e
  have hpart : (if e.val / 2 / 8 % 2 = 0
      then (decoded buf ⟨8 * (e.val / 2 / 16) + e.val / 2 % 8, by omega⟩).1
      else (decoded buf ⟨8 * (e.val / 2 / 16) + e.val / 2 % 8, by omega⟩).2) =
        (sampleAt buf ⟨e.val / 2, by omega⟩ : ℚ) / 32768 := by
    split
    · rename_i hreal
      simp only [decoded]
      congr 3
      apply Fin.ext
      dsimp only
      omega
    · rename_i himag
      simp only [decoded]
      congr 3
      apply Fin.ext
      dsimp only
      omega
  have hsample : sampleAt buf ⟨e.val / 2, by omega⟩ % 65536 =
      256 * (buf ⟨2 * (e.val / 2), by omega⟩).toNat +
        (buf ⟨2 * (e.val / 2) + 1, by omega⟩).toNat :=
    sampleOf_emod _ _
  have hlow := (buf ⟨2 * (e.val / 2) + 1, by omega⟩).toNat_lt
  unfold recoverBuf
  dsimp only
  rw [hpart, div_mul_cancel₀ _ (by norm_num), Int.floor_intCast, hsample]
  split
  · rename_i heven
    have hindex : (⟨2 * (e.val / 2), by omega⟩ : Fin 1024) = e := Fin.ext (by dsimp only; omega)
    rw [hindex, Int.add_comm, Int.add_mul_ediv_left _ _ (by norm_num),
      Int.ediv_eq_zero_of_lt (by omega) (by omega), Int.zero_add, Int.toNat_natCast,
      UInt8.ofNat_toNat]
  · rename_i hodd
    have hindex : (⟨2 * (e.val / 2) + 1, by omega⟩ : Fin 1024) = e :=
      Fin.ext (by dsimp only; omega)
    rw [Int.mul_add_emod_self_left, Int.emod_eq_of_lt (by omega) (by omega), hindex,
      Int.toNat_natCast, UInt8.ofNat_toNat]

/-- `parse_IQ_from_net` takes the samples apart: each of the 512 goes to one place, and the
buffer can be put together again. -/
theorem csi_samples_decoded :
    Function.Bijective samplePos ∧
      ∀ (buf : Fin 1024 → UInt8) (inputC : Fin 2 → UInt8) (iqStream : Fin 512 → ℚ)
        (inIQ : Fin 256 → ℚ × ℚ), ∃ inIQ',
        parseIQFromNet buf 1024 inputC iqStream inIQ = some inIQ' ∧
        (∀ (b : Fin 32) (j : Fin 8), inIQ' (laneOf b j) =
          ((sampleAt buf (samplePos (b, j, 0)) : ℚ) / 32768,
            (sampleAt buf (samplePos (b, j, 1)) : ℚ) / 32768)) ∧
        recoverBuf inIQ' = buf := by
  refine ⟨samplePos_bijective, fun buf inputC iqStream inIQ =>
    ⟨decoded buf, parseIQFromNet_eq buf inputC iqStream inIQ, fun b j => ?_,
      recoverBuf_decoded buf⟩⟩
  simp only [decoded, laneOf, samplePos]
  congr 4 <;> simp <;> omega

end GwWeb.IqDecoding
