import Mathlib.Data.Fin.VecNotation
import GwWeb.BoundedArrays
import GwWeb.DmaHandler

/-!
`processConstellation`: the samples of a message, paired. A plain `char` is unsigned, as
on the ARM board.
-/

namespace GwWeb.ConstellationDecoding

open BoundedArrays
open GwWeb.DmaHandler

structure ConstellationIqPair where
  vectReal : Fin 10000 → Int
  vectImag : Fin 10000 → Int
  iqCnt : Int

/-- `checkIQ`: 0 for I, 1 for Q. -/
def checkIQ (input : UInt8) : Nat := if input > 127 then 1 else 0

/-- The loop of `processConstellation`: the buffer, what is paired and the next place. -/
structure Cursor (n : Nat) where
  buf : Fin n → UInt8
  vectReal : Fin 10000 → Int
  vectImag : Fin 10000 → Int
  iqCnt : Nat
  swTemp : Nat

variable {n : Nat}

/-- One iteration: the byte is shifted, and goes to the array its tag names. -/
def pairSample (i : Nat) (s : Cursor n) : Option (Cursor n) := do
  let buf ← write s.buf i ((← read s.buf i) <<< 1)
  let tmp := (← read buf i).toNat
  let valueI : Int := if tmp > 127 then tmp - 256 else tmp
  if s.swTemp = 0 then do
    let vectReal ← write s.vectReal s.iqCnt valueI
    return { s with buf, vectReal, swTemp := 1 }
  else if s.swTemp = 1 then do
    let vectImag ← write s.vectImag s.iqCnt valueI
    return { s with buf, vectImag, swTemp := 0, iqCnt := s.iqCnt + 1 }
  else return { s with buf }

/-- `processConstellation` from `start_idx` on; what does not make a pair is left. -/
def pairFrom (startIdx : Nat) (buf : Fin n → UInt8) (g : ConstellationIqPair) :
    Option ((Fin n → UInt8) × ConstellationIqPair) := do
  let endIdx := if (n - startIdx) % 2 = 1 then n - 1 else n
  let s ← forLoop pairSample startIdx 1 (endIdx - startIdx)
    { buf, vectReal := g.vectReal, vectImag := g.vectImag, iqCnt := 0, swTemp := 0 }
  return (s.buf, { vectReal := s.vectReal, vectImag := s.vectImag, iqCnt := s.iqCnt })

/-- `processConstellation` on a buffer of `n` bytes, which it shifts in place. -/
def processConstellation (buf : Fin n → UInt8) (g : ConstellationIqPair) :
    Option ((Fin n → UInt8) × ConstellationIqPair) := do
  let g := { g with iqCnt := 0 }
  if checkIQ (← read buf 0) = 1 then
    -- two Q samples in a row: an error in the sequence
    if checkIQ (← read buf 1) = 1 then return (buf, g)
    else pairFrom 1 buf g
  else pairFrom 0 buf g

/-- The tag of a sample is its top bit. -/
def isQ (sample : UInt8) : Bool := sample.toBitVec.msb

/-- A sample is a number of seven bits behind the tag. -/
def sampleValue (sample : UInt8) : Int := (sample.toBitVec.setWidth 7).toInt

/-- I and Q alternate. -/
def Alternates (buf : Fin n → UInt8) : Prop :=
  ∀ i j : Fin n, j.val = i.val + 1 → isQ (buf j) = !isQ (buf i)

instance (buf : Fin n → UInt8) : Decidable (Alternates buf) :=
  inferInstanceAs (Decidable (∀ i j : Fin n, j.val = i.val + 1 → isQ (buf j) = !isQ (buf i)))

/-- The first I sample of an alternating buffer. -/
def firstI (buf : Fin n → UInt8) : Nat := if (read buf 0).any isQ then 1 else 0

theorem checkIQ_eq_one_iff (input : UInt8) : checkIQ input = 1 ↔ isQ input = true := by
  have hbits : ∀ v : BitVec 8, checkIQ ⟨v⟩ = 1 ↔ isQ ⟨v⟩ = true := by decide
  exact hbits input.toBitVec

theorem shifted_eq (sample : UInt8) :
    (let tmp := (sample <<< 1).toNat
     if tmp > 127 then (tmp : Int) - 256 else tmp) = 2 * sampleValue sample := by
  have hbits : ∀ v : BitVec 8,
      (let tmp := ((⟨v⟩ : UInt8) <<< 1).toNat
       if tmp > 127 then (tmp : Int) - 256 else tmp) = 2 * sampleValue ⟨v⟩ := by decide
  exact hbits sample.toBitVec

theorem sampleValue_bounds (sample : UInt8) :
    -128 ≤ 2 * sampleValue sample ∧ 2 * sampleValue sample ≤ 126 := by
  have hbits : ∀ v : BitVec 8, -128 ≤ 2 * sampleValue ⟨v⟩ ∧ 2 * sampleValue ⟨v⟩ ≤ 126 := by
    decide
  exact hbits sample.toBitVec

variable {s : Cursor n}

theorem pairSample_real {i : Nat} (hi : i < n) (hcnt : s.iqCnt < 10000) (hsw : s.swTemp = 0) :
    pairSample i s = some { s with
      buf := Function.update s.buf ⟨i, hi⟩ (s.buf ⟨i, hi⟩ <<< 1)
      vectReal := Function.update s.vectReal ⟨s.iqCnt, hcnt⟩ (2 * sampleValue (s.buf ⟨i, hi⟩))
      swTemp := 1 } := by
  rw [← shifted_eq (s.buf ⟨i, hi⟩)]
  simp [pairSample, read_of_lt, write_of_lt, hi, hcnt, hsw]

theorem pairSample_imag {i : Nat} (hi : i < n) (hcnt : s.iqCnt < 10000) (hsw : s.swTemp = 1) :
    pairSample i s = some { s with
      buf := Function.update s.buf ⟨i, hi⟩ (s.buf ⟨i, hi⟩ <<< 1)
      vectImag := Function.update s.vectImag ⟨s.iqCnt, hcnt⟩ (2 * sampleValue (s.buf ⟨i, hi⟩))
      swTemp := 0
      iqCnt := s.iqCnt + 1 } := by
  rw [← shifted_eq (s.buf ⟨i, hi⟩)]
  simp [pairSample, read_of_lt, write_of_lt, hi, hcnt, hsw]

variable {buf : Fin n → UInt8} {g : ConstellationIqPair} {startIdx o j : Nat}
  {vect old : Fin 10000 → Int}

/-- Of `j` samples from `startIdx` on, those at distance `o` from an I sample are in `vect`. -/
structure Filled (buf : Fin n → UInt8) (startIdx o j : Nat) (vect old : Fin 10000 → Int) :
    Prop where
  done : ∀ (k : Fin 10000) (i : Fin n), i.val = startIdx + (2 * k + o) → 2 * k + o < j →
    vect k = 2 * sampleValue (buf i)
  kept : ∀ k : Fin 10000, j ≤ 2 * k + o → vect k = old k

theorem Filled.write (h : Filled buf startIdx o j vect old) {c : Fin 10000} (hc : 2 * c + o = j)
    {i : Fin n} (hi : i.val = startIdx + j) :
    Filled buf startIdx o (j + 1) (Function.update vect c (2 * sampleValue (buf i))) old := by
  constructor
  · intro k i' hi' hk
    rcases eq_or_ne k c with rfl | hne
    · have hlast : i' = i := Fin.ext (by omega)
      rw [Function.update_self, hlast]
    · have hval : k.val ≠ c.val := fun heq => hne (Fin.ext heq)
      rw [Function.update_of_ne hne, h.done k i' hi' (by omega)]
  · intro k hk
    have hne : k ≠ c := by
      rintro rfl
      omega
    rw [Function.update_of_ne hne, h.kept k (by omega)]

theorem Filled.skip (h : Filled buf startIdx o j vect old) (hj : j % 2 ≠ o % 2) :
    Filled buf startIdx o (j + 1) vect old := by
  constructor
  · exact fun k i hi hk => h.done k i hi (by omega)
  · exact fun k hk => h.kept k (by omega)

/-- What the loop has done behind `j` samples from `startIdx` on. -/
structure Paired (buf : Fin n → UInt8) (g : ConstellationIqPair) (startIdx j : Nat)
    (s : Cursor n) : Prop where
  swTemp : s.swTemp = j % 2
  iqCnt : s.iqCnt = j / 2
  shifted : ∀ i : Fin n, s.buf i =
    if startIdx ≤ i ∧ i < startIdx + j then buf i <<< 1 else buf i
  real : Filled buf startIdx 0 j s.vectReal g.vectReal
  imag : Filled buf startIdx 1 j s.vectImag g.vectImag

theorem Paired.unread (h : Paired buf g startIdx j s) (hj : startIdx + j < n) :
    s.buf ⟨startIdx + j, hj⟩ = buf ⟨startIdx + j, hj⟩ := by
  rw [h.shifted, if_neg (by simp)]

theorem Paired.shiftNext (h : Paired buf g startIdx j s) (hj : startIdx + j < n) (i : Fin n) :
    Function.update s.buf ⟨startIdx + j, hj⟩ (s.buf ⟨startIdx + j, hj⟩ <<< 1) i =
      if startIdx ≤ i ∧ i < startIdx + (j + 1) then buf i <<< 1 else buf i := by
  rcases eq_or_ne i ⟨startIdx + j, hj⟩ with rfl | hne
  · rw [Function.update_self, h.unread hj, if_pos (by simp)]
  · have hval : i.val ≠ startIdx + j := fun heq => hne (Fin.ext heq)
    rw [Function.update_of_ne hne, h.shifted]
    congr 1
    apply propext
    omega

theorem Paired.next (h : Paired buf g startIdx j s) (hj : startIdx + j < n) (hn : n ≤ 20000) :
    ∃ s', pairSample (startIdx + 1 * j) s = some s' ∧ Paired buf g startIdx (j + 1) s' := by
  have hiq := h.iqCnt
  have hcnt : s.iqCnt < 10000 := by omega
  have hunread := h.unread hj
  rw [Nat.one_mul]
  rcases Nat.mod_two_eq_zero_or_one j with heven | hodd
  · refine ⟨_, pairSample_real hj hcnt (h.swTemp.trans heven), ?_, ?_, h.shiftNext hj, ?_, ?_⟩
    · show 1 = (j + 1) % 2
      omega
    · show s.iqCnt = (j + 1) / 2
      omega
    · rw [hunread]
      exact h.real.write (c := ⟨s.iqCnt, hcnt⟩) (by dsimp only; omega) rfl
    · exact h.imag.skip (by omega)
  · refine ⟨_, pairSample_imag hj hcnt (h.swTemp.trans hodd), ?_, ?_, h.shiftNext hj, ?_, ?_⟩
    · show 0 = (j + 1) % 2
      omega
    · show s.iqCnt + 1 = (j + 1) / 2
      omega
    · exact h.real.skip (by omega)
    · rw [hunread]
      exact h.imag.write (c := ⟨s.iqCnt, hcnt⟩) (by dsimp only; omega) rfl

theorem paired_start : Paired buf g startIdx 0
    { buf, vectReal := g.vectReal, vectImag := g.vectImag, iqCnt := 0, swTemp := 0 } := by
  refine ⟨rfl, rfl, fun i => ?_, ⟨?_, fun _ _ => rfl⟩, ⟨?_, fun _ _ => rfl⟩⟩
  · rw [if_neg (by omega)]
  · exact fun k i _ hk => absurd hk (Nat.not_lt_zero _)
  · exact fun k i _ hk => absurd hk (Nat.not_lt_zero _)

/-- What `processConstellation` leaves of the samples from `startIdx` on: the pairs, and
nothing of a last sample without a partner. -/
structure PairsFrom (buf : Fin n → UInt8) (g : ConstellationIqPair) (startIdx : Nat)
    (buf' : Fin n → UInt8) (g' : ConstellationIqPair) : Prop where
  iqCnt : g'.iqCnt = ((n - startIdx) / 2 : Nat)
  pairs : ∀ k : Fin 10000, k.val < (n - startIdx) / 2 → ∃ i q : Fin n,
    i.val = startIdx + 2 * k ∧ q.val = startIdx + 2 * k + 1 ∧
      g'.vectReal k = 2 * sampleValue (buf i) ∧ g'.vectImag k = 2 * sampleValue (buf q)
  dropped : ∀ k : Fin 10000, (n - startIdx) / 2 ≤ k.val →
    g'.vectReal k = g.vectReal k ∧ g'.vectImag k = g.vectImag k
  untouched : ∀ i : Fin n, i < startIdx ∨ startIdx + 2 * ((n - startIdx) / 2) ≤ i →
    buf' i = buf i

theorem pairFrom_pairs (hn : n ≤ 20000) (hstart : startIdx ≤ n) :
    ∃ buf' g', pairFrom startIdx buf g = some (buf', g') ∧
      PairsFrom buf g startIdx buf' g' := by
  have hend : (if (n - startIdx) % 2 = 1 then n - 1 else n) - startIdx =
      2 * ((n - startIdx) / 2) := by
    split <;> omega
  obtain ⟨s, hloop, hpaired⟩ : ∃ s, forLoop pairSample startIdx 1 (2 * ((n - startIdx) / 2))
      { buf, vectReal := g.vectReal, vectImag := g.vectImag, iqCnt := 0, swTemp := 0 } = some s ∧
        Paired buf g startIdx (2 * ((n - startIdx) / 2)) s := by
    apply forLoop_invariant (Paired buf g startIdx) paired_start
    intro j s hj h
    exact h.next (by omega) hn
  have hiq := hpaired.iqCnt
  refine ⟨s.buf, { vectReal := s.vectReal, vectImag := s.vectImag, iqCnt := s.iqCnt }, ?_, ?_, ?_,
    ?_, ?_⟩
  · simp [pairFrom, hend, hloop]
  · dsimp only
    omega
  · intro k hk
    have hi : startIdx + 2 * k < n := by omega
    have hq : startIdx + 2 * k + 1 < n := by omega
    exact ⟨⟨_, hi⟩, ⟨_, hq⟩, rfl, rfl, hpaired.real.done k _ rfl (by omega),
      hpaired.imag.done k _ rfl (by omega)⟩
  · exact fun k hk => ⟨hpaired.real.kept k (by omega), hpaired.imag.kept k (by omega)⟩
  · intro i hi
    rw [hpaired.shifted, if_neg (by omega)]

theorem Alternates.tag (h : Alternates buf) {first : Bool} (hstart : startIdx < n)
    (hfirst : isQ (buf ⟨startIdx, hstart⟩) = first) (hj : startIdx + j < n) :
    isQ (buf ⟨startIdx + j, hj⟩) = if j % 2 = 0 then first else !first := by
  induction j with
  | zero => simpa using hfirst
  | succ j ih =>
      have hnext := h ⟨startIdx + j, Nat.lt_of_succ_lt hj⟩ ⟨startIdx + (j + 1), hj⟩ rfl
      rw [ih (Nat.lt_of_succ_lt hj)] at hnext
      refine hnext.trans ?_
      rcases Nat.mod_two_eq_zero_or_one j with heven | hodd
      · have hodd : (j + 1) % 2 ≠ 0 := by omega
        simp [heven, hodd]
      · have heven : (j + 1) % 2 = 0 := by omega
        simp [heven, hodd]

theorem processConstellation_eq (hmin : 2 ≤ n) (htags : Alternates buf) :
    processConstellation buf g = pairFrom (firstI buf) buf { g with iqCnt := 0 } := by
  have hread0 := read_of_lt buf (show 0 < n by omega)
  have hread1 := read_of_lt buf (show 1 < n by omega)
  have hnext := htags ⟨0, by omega⟩ ⟨1, by omega⟩ rfl
  simp only [processConstellation, firstI, hread0, hread1, Option.bind_eq_bind, Option.bind_some,
    checkIQ_eq_one_iff, Option.any_some, hnext]
  split
  · rename_i hfirst
    simp [hfirst]
  · rfl

theorem firstI_lt (hmin : 2 ≤ n) : firstI buf < n := by
  unfold firstI
  split <;> omega

theorem isQ_firstI (hmin : 2 ≤ n) (htags : Alternates buf) :
    isQ (buf ⟨firstI buf, firstI_lt hmin⟩) = false := by
  have hread := read_of_lt buf (show 0 < n by omega)
  rcases hfirst : isQ (buf ⟨0, by omega⟩) with - | -
  · simp [firstI, hread, hfirst]
  · have hnext := htags ⟨0, by omega⟩ ⟨1, by omega⟩ rfl
    rw [hfirst] at hnext
    simpa [firstI, hread, hfirst] using hnext

/-- Each I sample is paired with the Q sample behind it. -/
theorem constellation_pairs (hmin : 2 ≤ n) (hmax : n ≤ 2000) (htags : Alternates buf)
    (g : ConstellationIqPair) :
    ∃ buf' g', processConstellation buf g = some (buf', g') ∧
      g'.iqCnt = ((n - firstI buf) / 2 : Nat) ∧
      (∀ k, k < (n - firstI buf) / 2 → ∃ (e : Fin 10000) (i q : Fin n),
        e.val = k ∧ i.val = firstI buf + 2 * k ∧ q.val = firstI buf + 2 * k + 1 ∧
        isQ (buf i) = false ∧ isQ (buf q) = true ∧
        g'.vectReal e = 2 * sampleValue (buf i) ∧ g'.vectImag e = 2 * sampleValue (buf q) ∧
        (-128 ≤ g'.vectReal e ∧ g'.vectReal e ≤ 126) ∧
        (-128 ≤ g'.vectImag e ∧ g'.vectImag e ≤ 126)) ∧
      (∀ e : Fin 10000, (n - firstI buf) / 2 ≤ e →
        g'.vectReal e = g.vectReal e ∧ g'.vectImag e = g.vectImag e) ∧
      ∀ i : Fin n, firstI buf + 2 * ((n - firstI buf) / 2) ≤ i → buf' i = buf i := by
  have hfirst : firstI buf < n := firstI_lt hmin
  have hpair : ∃ buf' g', pairFrom (firstI buf) buf { g with iqCnt := 0 } = some (buf', g') ∧
      PairsFrom buf { g with iqCnt := 0 } (firstI buf) buf' g' :=
    pairFrom_pairs (by omega) (Nat.le_of_lt hfirst)
  obtain ⟨buf', g', hok, hpairs⟩ := hpair
  refine ⟨buf', g', (processConstellation_eq hmin htags).trans hok, hpairs.iqCnt, ?_,
    hpairs.dropped, fun i hi => hpairs.untouched i (.inr hi)⟩
  intro k hk
  obtain ⟨i, q, hi, hq, hreal, himag⟩ := hpairs.pairs ⟨k, by omega⟩ hk
  have htag := isQ_firstI hmin htags
  have hiTag : isQ (buf i) = false := by
    have heven := htags.tag hfirst htag (j := 2 * k) (by omega)
    have hi' : i = ⟨firstI buf + 2 * k, by omega⟩ := Fin.ext hi
    rw [hi', heven, if_pos (by omega)]
  have hqTag : isQ (buf q) = true := by
    have hodd := htags.tag hfirst htag (j := 2 * k + 1) (by omega)
    have hq' : q = ⟨firstI buf + (2 * k + 1), by omega⟩ := Fin.ext hq
    rw [hq', hodd, if_neg (by omega)]
    rfl
  refine ⟨⟨k, by omega⟩, i, q, rfl, hi, hq, hiTag, hqTag, hreal, himag, ?_, ?_⟩
  · rw [hreal]
    exact sampleValue_bounds _
  · rw [himag]
    exact sampleValue_bounds _

/-- A Q sample, a pair and an I sample without a partner. -/
def fourSamples : Fin 4 → UInt8 := ![200, 5, 129, 70]

def noPairs : ConstellationIqPair :=
  { vectReal := fun _ => 0, vectImag := fun _ => 0, iqCnt := 0 }

theorem constellation_pairs_four_samples :
    ∃ buf' g', processConstellation fourSamples noPairs = some (buf', g') ∧
      g'.iqCnt = 1 ∧ g'.vectReal 0 = 10 ∧ g'.vectImag 0 = 2 ∧ buf' 3 = 70 := by
  obtain ⟨buf', g', hok, hcnt, hpairs, -, hkept⟩ :=
    constellation_pairs (by decide) (by decide) (show Alternates fourSamples by decide) noPairs
  obtain ⟨e, i, q, he, hi, hq, -, -, hreal, himag, -⟩ := hpairs 0 (by decide)
  obtain rfl : e = 0 := Fin.ext he
  obtain rfl : i = 1 := Fin.ext hi
  obtain rfl : q = 2 := Fin.ext hq
  exact ⟨buf', g', hok, hcnt, hreal, himag, hkept 3 (by decide)⟩

end GwWeb.ConstellationDecoding
