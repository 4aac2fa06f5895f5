import Mathlib.Analysis.SpecialFunctions.Log.Base
import Mathlib.Analysis.SpecialFunctions.Trigonometric.Basic
import Mathlib.Data.List.FinRange

/-!
What `processCSI` makes of a message of 1024 bytes, in buffers that stay from one
message to the next, and what is displayed of it.
-/

namespace GwWeb.CsiDisplay

/-- The `float` arithmetic, one function for each expression of the source:
`value_d` for a 16-bit value, a bin of `spectrum`, `spectrum[i] < 1e-100`,
`10.0 * log10(spectrum[i])` and a value of `time_IQ`. -/
structure FloatOps (F : Type*) where
  sample : Int → F
  power : F × F → F
  negligible : F → Bool
  decibel : F → F
  level : F × F → F

/-- A message of `MSG_CSI_READY` that is not dropped. -/
abbrev CsiMessage := Fin 1024 → UInt8

/-- `csi_spectrum_t`. -/
structure CsiSpectrum (F : Type*) where
  outFft : Fin 256 → F × F
  inIQ : Fin 256 → F × F
  spectrum : Fin 256 → F
  dbArray : Fin 256 → F
  timeIQ : Fin 256 → F

variable {F : Type*} (ops : FloatOps F)
  -- FFTW is not part of this program: `fftwf_execute` for one plan of 256 points
  (fftwfExecute : (Fin 256 → F × F) → Fin 256 → F × F)

/-- `tranform`: the bytes of a 16-bit value, the high one first. -/
def tranform (high low : UInt8) : F :=
  let temp : Int := 256 * high.toNat + low.toNat
  ops.sample (if temp > 32767 then temp - 65536 else temp)

/-- Value `i` of `IQ_stream`. -/
def iqStream (buf : CsiMessage) (i : Fin 512) : F :=
  tranform ops (buf ⟨2 * i, by omega⟩) (buf ⟨2 * i + 1, by omega⟩)

/-- `parse_IQ_from_net`: eight real parts, then the eight imaginary parts. -/
def parseIQFromNet (buf : CsiMessage) : Fin 256 → F × F := fun k =>
  (iqStream ops buf ⟨16 * (k / 8) + k % 8, by omega⟩,
    iqStream ops buf ⟨16 * (k / 8) + k % 8 + 8, by omega⟩)

def calculateSpectrum (outFft : Fin 256 → F × F) : Fin 256 → F := fun i => ops.power (outFft i)

/-- The loop of `myfftshift`, with whether it comes to its end. -/
def fftshiftLoop : List (Fin 256) → (Fin 256 → F) → Bool × (Fin 256 → F)
  | [], spectrum => (true, spectrum)
  | i :: is, spectrum =>
      if ops.negligible (spectrum i) then (false, spectrum)
      else fftshiftLoop is (Function.update spectrum i (ops.decibel (spectrum i)))

/-- `myfftshift`: its return value, `db_array` and `spectrum`. -/
def myfftshift (dbArray spectrum : Fin 256 → F) : Int × (Fin 256 → F) × (Fin 256 → F) :=
  match fftshiftLoop ops (List.finRange 256) spectrum with
  | (false, spectrum) => (-1, dbArray, spectrum)
  | (true, spectrum) => (0, fun i => spectrum (i + 128), spectrum)

def timeDomainChange (inIQ : Fin 256 → F × F) : Fin 256 → F := fun i => ops.level (inIQ i)

/-- `processCSI`, with `fftwf_execute` as a parameter. -/
def processCSI (buf : CsiMessage) (s : CsiSpectrum F) : CsiSpectrum F :=
  let inIQ := parseIQFromNet ops buf
  let outFft := fftwfExecute inIQ
  let shifted := myfftshift ops s.dbArray (calculateSpectrum ops outFft)
  { outFft, inIQ, spectrum := shifted.2.2, dbArray := shifted.2.1,
    timeIQ := timeDomainChange ops inIQ }

/-- The arrays that `send_csi_display_in_event_loop` sends. -/
def displayed (s : CsiSpectrum F) : (Fin 256 → F) × (Fin 256 → F) := (s.dbArray, s.timeIQ)

/-- The messages of a history, from what `malloc` left in the buffers on. -/
def handleAll (s : CsiSpectrum F) (history : List CsiMessage) : CsiSpectrum F :=
  history.foldl (fun s buf => processCSI ops fftwfExecute buf s) s

/-- Two histories that end in this message display the same. -/
def OwnFrame (buf : CsiMessage) : Prop :=
  ∀ s s' history history',
    displayed (handleAll ops fftwfExecute s (history ++ [buf])) =
      displayed (handleAll ops fftwfExecute s' (history' ++ [buf]))

/-- The power of a frequency bin of a message. -/
def binPower (buf : CsiMessage) (i : Fin 256) : F :=
  ops.power (fftwfExecute (parseIQFromNet ops buf) i)

variable {ops fftwfExecute} {is : List (Fin 256)} {spectrum : Fin 256 → F} {buf : CsiMessage}

/-- The loop comes to its end if no bin is negligible; then every bin is in
decibels. -/
theorem fftshiftLoop_of_audible (hnodup : is.Nodup)
    (h : ∀ i ∈ is, ops.negligible (spectrum i) = false) :
    fftshiftLoop ops is spectrum =
      (true, fun j => if j ∈ is then ops.decibel (spectrum j) else spectrum j) := by
  induction is generalizing spectrum with
  | nil => simp [fftshiftLoop]
  | cons i is ih =>
      obtain ⟨hi, hnodup⟩ := List.nodup_cons.mp hnodup
      obtain ⟨hfirst, hrest⟩ := List.forall_mem_cons.mp h
      have hkept : ∀ j ∈ is, Function.update spectrum i (ops.decibel (spectrum i)) j = spectrum j :=
        fun j hj => Function.update_of_ne (fun heq : j = i => hi (heq ▸ hj)) _ _
      have hrest' : ∀ j ∈ is, ops.negligible
          (Function.update spectrum i (ops.decibel (spectrum i)) j) = false := by
        intro j hj
        rw [hkept j hj]
        exact hrest j hj
      rw [fftshiftLoop, hfirst, if_neg (by simp), ih hnodup hrest']
      congr 1
      funext j
      by_cases hj : j ∈ is
      · rw [if_pos hj, hkept j hj, if_pos (List.mem_cons_of_mem i hj)]
      · rcases eq_or_ne j i with rfl | hne
        · simp [hi]
        · simp [hj, hne]

theorem fftshiftLoop_of_negligible (hnodup : is.Nodup) {i : Fin 256} (hi : i ∈ is)
    (h : ops.negligible (spectrum i) = true) : (fftshiftLoop ops is spectrum).1 = false := by
  induction is generalizing spectrum with
  | nil => simp at hi
  | cons j is ih =>
      obtain ⟨hj, hnodup⟩ := List.nodup_cons.mp hnodup
      rw [fftshiftLoop]
      split
      · rfl
      · rename_i haudible
        rcases List.mem_cons.mp hi with rfl | hi
        · exact absurd h haudible
        · refine ih hnodup hi ?_
          rw [Function.update_of_ne fun heq : i = j => hj (heq ▸ hi)]
          exact h

theorem dbArray_of_audible (h : ∀ i, ops.negligible (binPower ops fftwfExecute buf i) = false)
    (s : CsiSpectrum F) :
    (processCSI ops fftwfExecute buf s).dbArray =
      fun i => ops.decibel (binPower ops fftwfExecute buf (i + 128)) := by
  have hloop := fftshiftLoop_of_audible (List.nodup_finRange 256) fun i _ => h i
  simp only [List.mem_finRange, if_true] at hloop
  show (myfftshift ops s.dbArray (binPower ops fftwfExecute buf)).2.1 = _
  rw [myfftshift, hloop]

theorem dbArray_of_negligible {i : Fin 256}
    (h : ops.negligible (binPower ops fftwfExecute buf i) = true) (s : CsiSpectrum F) :
    (processCSI ops fftwfExecute buf s).dbArray = s.dbArray := by
  have hloop := fftshiftLoop_of_negligible (List.nodup_finRange 256) (List.mem_finRange i) h
  show (myfftshift ops s.dbArray (binPower ops fftwfExecute buf)).2.1 = _
  rw [myfftshift]
  split
  · rfl
  · rename_i hdone
    rw [hdone] at hloop
    cases hloop

theorem handleAll_concat (s : CsiSpectrum F) (history : List CsiMessage) (buf : CsiMessage) :
    handleAll ops fftwfExecute s (history ++ [buf]) =
      processCSI ops fftwfExecute buf (handleAll ops fftwfExecute s history) := by
  rw [handleAll, List.foldl_append]
  rfl

/-- A frame comes from its own samples if and only if none of its frequency bins
is negligible. -/
theorem csi_display_own_iff [Nontrivial F] (ops : FloatOps F)
    (fftwfExecute : (Fin 256 → F × F) → Fin 256 → F × F) (buf : CsiMessage) :
    OwnFrame ops fftwfExecute buf ↔
      ∀ i, ops.negligible (binPower ops fftwfExecute buf i) = false := by
  constructor
  · intro h i
    by_contra hnegligible
    rw [Bool.not_eq_false] at hnegligible
    obtain ⟨x, y, hne⟩ := exists_pair_ne F
    -- two contents of `db_array` that no message has touched
    let blank (z : F) : CsiSpectrum F :=
      { outFft := fun _ => (z, z), inIQ := fun _ => (z, z), spectrum := fun _ => z,
        dbArray := fun _ => z, timeIQ := fun _ => z }
    have hdb := congrArg Prod.fst (h (blank x) (blank y) [] [])
    have hsame : (processCSI ops fftwfExecute buf (blank x)).dbArray =
        (processCSI ops fftwfExecute buf (blank y)).dbArray := hdb
    rw [dbArray_of_negligible hnegligible, dbArray_of_negligible hnegligible] at hsame
    exact hne (congrFun hsame 0)
  · intro h s s' history history'
    rw [handleAll_concat, handleAll_concat]
    apply Prod.ext
    · exact (dbArray_of_audible h _).trans (dbArray_of_audible h _).symm
    · rfl

section Reals

/-- The arithmetic without rounding. -/
noncomputable def realOps : FloatOps ℝ where
  sample := fun v => v / 32768
  power := fun z => (z.1 * z.1 + z.2 * z.2) / (256 * 256)
  negligible := fun x => decide (x < 1e-100)
  decibel := fun x => 10 * Real.logb 10 x
  level := fun z => Real.exp (Real.sqrt (z.1 * z.1 + z.2 * z.2))

/-- The forward discrete Fourier transform. -/
noncomputable def dft (x : Fin 256 → ℝ × ℝ) : Fin 256 → ℝ × ℝ := fun k =>
  let angle (n : Fin 256) : ℝ := 2 * Real.pi * k * n / 256
  (∑ n, ((x n).1 * Real.cos (angle n) + (x n).2 * Real.sin (angle n)),
    ∑ n, ((x n).2 * Real.cos (angle n) - (x n).1 * Real.sin (angle n)))

def silence : CsiMessage := fun _ => 0

/-- The first value is 0x4000, the others are 0. -/
def impulse : CsiMessage := fun i => if i = 0 then 64 else 0

theorem iqStream_impulse (i : Fin 512) :
    iqStream realOps impulse i = if i = 0 then 1 / 2 else 0 := by
  have hlow : impulse ⟨2 * i + 1, by omega⟩ = 0 := by
    refine if_neg fun hzero => ?_
    have hval : 2 * (i : Nat) + 1 = 0 := congrArg Fin.val hzero
    omega
  rw [iqStream, hlow]
  rcases eq_or_ne i 0 with rfl | hi
  · have hvalue : tranform realOps (impulse ⟨2 * (0 : Fin 512), by omega⟩) 0 =
        realOps.sample 16384 := rfl
    rw [hvalue]
    norm_num [realOps]
  · have hhigh : impulse ⟨2 * i, by omega⟩ = 0 := by
      refine if_neg fun hzero => hi (Fin.ext ?_)
      have hval : 2 * (i : Nat) = 0 := congrArg Fin.val hzero
      show (i : Nat) = 0
      omega
    have hvalue : tranform realOps 0 0 = realOps.sample 0 := rfl
    rw [hhigh, if_neg hi, hvalue]
    norm_num [realOps]

theorem parse_impulse (k : Fin 256) :
    parseIQFromNet realOps impulse k = if k = 0 then (1 / 2, 0) else (0, 0) := by
  have hreal : ((⟨16 * (k / 8) + k % 8, by omega⟩ : Fin 512) = 0) ↔ k = 0 := by
    simp only [Fin.ext_iff, Fin.val_zero]
    omega
  have himag : (⟨16 * (k / 8) + k % 8 + 8, by omega⟩ : Fin 512) ≠ 0 := by
    simp only [ne_eq, Fin.ext_iff, Fin.val_zero]
    omega
  rw [parseIQFromNet, iqStream_impulse, iqStream_impulse, if_neg himag]
  simp only [hreal]
  split <;> rfl

theorem binPower_impulse (i : Fin 256) : binPower realOps dft impulse i = 1 / 262144 := by
  have hdft : dft (parseIQFromNet realOps impulse) i = (1 / 2, 0) := by
    simp only [dft, parse_impulse]
    apply Prod.ext
    · rw [Finset.sum_eq_single 0]
      · simp
      · intro n _ hn
        simp [hn]
      · simp
    · dsimp only
      refine Finset.sum_eq_zero fun n _ => ?_
      rcases eq_or_ne n 0 with rfl | hn
      · simp
      · simp [hn]
  rw [binPower, hdft]
  norm_num [realOps]

theorem parse_silence (k : Fin 256) : parseIQFromNet realOps silence k = (0, 0) := by
  norm_num [parseIQFromNet, iqStream, silence, tranform, realOps]

theorem binPower_silence (i : Fin 256) : binPower realOps dft silence i = 0 := by
  have hdft : dft (parseIQFromNet realOps silence) i = (0, 0) := by
    simp [dft, parse_silence]
  rw [binPower, hdft]
  norm_num [realOps]

theorem audible_impulse (i : Fin 256) :
    realOps.negligible (binPower realOps dft impulse i) = false := by
  rw [binPower_impulse]
  norm_num [realOps]

theorem csi_display_own_impulse : OwnFrame realOps dft impulse :=
  (csi_display_own_iff realOps dft impulse).mpr audible_impulse

/-- All-zero samples: `db_array` shows the message before them. -/
theorem silence_shows_frame_before :
    (∃ s, displayed (handleAll realOps dft s ([impulse] ++ [silence])) ≠
      displayed (handleAll realOps dft s ([] ++ [silence]))) ∧
    ¬ OwnFrame realOps dft silence := by
  have hsilent : realOps.negligible (binPower realOps dft silence 0) = true := by
    rw [binPower_silence]
    norm_num [realOps]
  have hdiffers : ∃ s, displayed (handleAll realOps dft s ([impulse] ++ [silence])) ≠
      displayed (handleAll realOps dft s ([] ++ [silence])) := by
    let blank : CsiSpectrum ℝ :=
      { outFft := fun _ => (0, 0), inIQ := fun _ => (0, 0), spectrum := fun _ => 0,
        dbArray := fun _ => 0, timeIQ := fun _ => 0 }
    refine ⟨blank, fun hsame => ?_⟩
    have hdb := congrFun (congrArg Prod.fst hsame) 0
    have hfirst : (processCSI realOps dft silence
        (processCSI realOps dft impulse blank)).dbArray 0 = 10 * Real.logb 10 (1 / 262144) := by
      rw [dbArray_of_negligible hsilent, dbArray_of_audible audible_impulse]
      show realOps.decibel (binPower realOps dft impulse _) = _
      rw [binPower_impulse]
      rfl
    have hsecond : (processCSI realOps dft silence blank).dbArray 0 = 0 := by
      rw [dbArray_of_negligible hsilent]
    have hzero : 10 * Real.logb 10 (1 / 262144) = 0 := hfirst.symm.trans (hdb.trans hsecond)
    have hnonzero : Real.logb 10 (1 / 262144) ≠ 0 :=
      Real.logb_ne_zero_of_pos_of_ne_one (by norm_num) (by norm_num) (by norm_num)
    exact hnonzero (by linarith)
  obtain ⟨s, hs⟩ := hdiffers
  exact ⟨⟨s, hs⟩, fun h => hs (h s s [impulse] [])⟩

end Reals

end GwWeb.CsiDisplay
