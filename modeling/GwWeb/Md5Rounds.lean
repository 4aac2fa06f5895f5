import GwWeb.Md5sum
import GwWeb.SineEnclosure

/-!
`transform` against RFC 1321: its 64 statements name the registers they work on,
where the RFC turns the four values by one place with every step.
-/

namespace GwWeb.Md5sum

open SineEnclosure

namespace Rfc1321

def F (x y z : BitVec 32) : BitVec 32 := (x &&& y) ||| (~~~x &&& z)

def G (x y z : BitVec 32) : BitVec 32 := (x &&& z) ||| (y &&& ~~~z)

def H (x y z : BitVec 32) : BitVec 32 := x ^^^ y ^^^ z

def I (x y z : BitVec 32) : BitVec 32 := y ^^^ (x ||| ~~~z)

/-- The function of step `i`. -/
def auxiliary (i : Nat) : BitVec 32 → BitVec 32 → BitVec 32 → BitVec 32 :=
  if i < 16 then F else if i < 32 then G else if i < 48 then H else I

/-- The word of the block that step `i` adds. -/
def wordIndex (i : Nat) : Nat :=
  if i < 16 then i
  else if i < 32 then (5 * i + 1) % 16
  else if i < 48 then (3 * i + 5) % 16
  else 7 * i % 16

/-- The rotation of step `i`. -/
def shift (i : Nat) : Nat :=
  ((if i < 16 then [7, 12, 17, 22]
    else if i < 32 then [5, 9, 14, 20]
    else if i < 48 then [4, 11, 16, 23]
    else [6, 10, 15, 21]) : List Nat).getD (i % 4) 0

/-- The `i + 1`-th constant: the whole part of the sine of `i + 1`, scaled. -/
noncomputable def T (i : Nat) : BitVec 32 :=
  BitVec.ofInt 32 ⌊4294967296 * |Real.sin (i + 1)|⌋

/-- Step `i` on the values that the RFC calls `a`, `b`, `c` and `d` there. -/
def step (T : Nat → BitVec 32) (X : Nat → BitVec 32) (v : Registers) (i : Nat) : Registers :=
  { A := v.D
    B := v.B + (v.A + auxiliary i v.B v.C v.D + X (wordIndex i) + T i).rotateLeft (shift i)
    C := v.B
    D := v.C }

/-- The compression function of the RFC. -/
def compress (T : Nat → BitVec 32) (v : Registers) (block : List UInt8) : Registers :=
  v.add ((List.range 64).foldl (step T (correctWords block)) v)

end Rfc1321

theorem ff_eq (x y z : BitVec 32) : ff x y z = Rfc1321.F x y z := by
  ext i hi
  simp only [ff, Rfc1321.F, BitVec.getElem_xor, BitVec.getElem_and, BitVec.getElem_or,
    BitVec.getElem_not]
  cases x[i] <;> cases y[i] <;> cases z[i] <;> rfl

theorem fg_eq (x y z : BitVec 32) : fg x y z = Rfc1321.G x y z := by
  ext i hi
  simp only [fg, ff, Rfc1321.G, BitVec.getElem_xor, BitVec.getElem_and, BitVec.getElem_or,
    BitVec.getElem_not]
  cases x[i] <;> cases y[i] <;> cases z[i] <;> rfl

theorem rol_eq (x : BitVec 32) {n : Nat} (hn : n < 32) : rol x n = x.rotateLeft n := by
  rw [BitVec.rotateLeft_def, Nat.mod_eq_of_lt hn]
  rfl

/-- The registers that statement `i` calls `a`, `b`, `c` and `d`. -/
def operand (i : Nat) : Register × Register × Register × Register :=
  if i % 4 = 0 then (.A, .B, .C, .D)
  else if i % 4 = 1 then (.D, .A, .B, .C)
  else if i % 4 = 2 then (.C, .D, .A, .B)
  else (.B, .C, .D, .A)

/-- The macro of statement `i`. -/
def roundMacro (i : Nat) : BitVec 32 → BitVec 32 → BitVec 32 → BitVec 32 :=
  if i < 16 then ff else if i < 32 then fg else if i < 48 then fh else fi

/-- The statements of `transform`. -/
def statements : List Op := round1 ++ round2 ++ round3 ++ round4

/-- The constants in the order of the statements. -/
def constant (i : Nat) : BitVec 32 := (statements.map Op.T).getD i 0

/-- Statement `i`, by the pattern of its round. -/
def statementAt (i : Nat) : Op :=
  { f := roundMacro i
    a := (operand i).1
    b := (operand i).2.1
    c := (operand i).2.2.1
    d := (operand i).2.2.2
    k := Rfc1321.wordIndex i
    s := Rfc1321.shift i
    T := constant i }

theorem statements_eq : statements = (List.range 64).map statementAt := by rfl

theorem roundMacro_eq (i : Nat) : roundMacro i = Rfc1321.auxiliary i := by
  have hff : ff = Rfc1321.F := by
    funext b c d
    exact ff_eq b c d
  have hfg : fg = Rfc1321.G := by
    funext b c d
    exact fg_eq b c d
  unfold roundMacro Rfc1321.auxiliary
  rw [hff, hfg]
  rfl

theorem shift_lt (i : Nat) : Rfc1321.shift i < 32 := by
  have hmod : i % 4 = 0 ∨ i % 4 = 1 ∨ i % 4 = 2 ∨ i % 4 = 3 := by omega
  unfold Rfc1321.shift
  rcases hmod with h | h | h | h <;> rw [h] <;> split_ifs <;> decide

/-- The registers as the RFC names them before step `i`. -/
def view (i : Nat) (r : Registers) : Registers :=
  { A := r.get (operand i).1
    B := r.get (operand i).2.1
    C := r.get (operand i).2.2.1
    D := r.get (operand i).2.2.2 }

theorem Op.execute_eq (X : Nat → BitVec 32) (r : Registers) (o : Op) (ha : o.a ≠ o.b) :
    o.execute X r =
      r.set (r.get o.b +
        rol (r.get o.a + o.f (r.get o.b) (r.get o.c) (r.get o.d) + X o.k + o.T) o.s) o.a := by
  rcases o with ⟨f, a, b, c, d, k, s, T⟩
  rw [add_assoc (r.get a + _), add_assoc (r.get a), ← add_assoc (f _ _ _), add_comm (r.get b)]
  cases a <;> cases b <;> first | exact absurd rfl ha | rfl

theorem view_execute (X : Nat → BitVec 32) (r : Registers) (i : Nat) :
    view (i + 1) ((statementAt i).execute X r) = Rfc1321.step constant X (view i r) i := by
  have hoperand : (statementAt i).a ≠ (statementAt i).b := by
    change (operand i).1 ≠ (operand i).2.1
    unfold operand
    split_ifs <;> decide
  rw [Op.execute_eq X r _ hoperand]
  simp only [statementAt, roundMacro_eq, rol_eq _ (shift_lt i), Rfc1321.step]
  have hmod : i % 4 = 0 ∨ i % 4 = 1 ∨ i % 4 = 2 ∨ i % 4 = 3 := by omega
  rcases hmod with h | h | h | h
  · have hnext : (i + 1) % 4 = 1 := by omega
    simp [view, operand, h, hnext, Registers.get, Registers.set]
  · have hnext : (i + 1) % 4 = 2 := by omega
    simp [view, operand, h, hnext, Registers.get, Registers.set]
  · have hnext : (i + 1) % 4 = 3 := by omega
    simp [view, operand, h, hnext, Registers.get, Registers.set]
  · have hnext : (i + 1) % 4 = 0 := by omega
    simp [view, operand, h, hnext, Registers.get, Registers.set]

theorem view_foldl (X : Nat → BitVec 32) (r : Registers) (n : Nat) :
    view n (((List.range n).map statementAt).foldl (Op.execute X) r) =
      (List.range n).foldl (Rfc1321.step constant X) r := by
  induction n with
  | zero => rfl
  | succ n ih =>
      rw [List.range_succ, List.map_append, List.foldl_append, List.foldl_append, ← ih]
      exact view_execute X _ n

/-- The sine and the cosine of 1, in units of `2 ^ -120`. -/
def sinOne : ℤ := 1118506790647359666268926078808821564

def cosOne : ℤ := 718184951147075946983144219864494525

theorem encloses_one : Encloses (2 ^ 120) 1 (sinOne, cosOne) 1 := by
  have hsin := abs_le.mp (abs_sin_one_sub_le 9)
  have hcos := abs_le.mp (abs_cos_one_sub_le 9)
  simp only [Nat.reduceMul, Finset.sum_range_succ, Finset.sum_range_zero, Nat.factorial]
    at hsin hcos
  norm_num at hsin hcos
  refine ⟨abs_le.mpr ⟨?_, ?_⟩, abs_le.mpr ⟨?_, ?_⟩⟩
  all_goals
    norm_num [sinOne, cosOne]
    linarith

theorem encloses_zero : Encloses (2 ^ 120) 0 (0, 2 ^ 120) 0 := by
  constructor <;> simp [Near]

theorem agrees_constants :
    agrees (2 ^ 120) sinOne cosOne (2 ^ 88) (statements.map fun o => (o.T.toNat : ℤ))
      (0, 2 ^ 120) 0 = true := by
  decide +kernel

theorem constant_eq {i : Nat} (hi : i < 64) : constant i = Rfc1321.T i := by
  have hlength : statements.length = 64 := by rfl
  have hi' : i < statements.length := by omega
  have hfloor := agrees_sound (by decide) (by decide) encloses_one (by decide) (by decide)
    encloses_zero agrees_constants (k := i) (by rwa [List.length_map])
  have hangle : (0 : ℝ) + (i + 1) * 1 = i + 1 := by ring
  have hscale : ((2 ^ 120 : ℤ) : ℝ) * |Real.sin (i + 1)| / ((2 ^ 88 : ℤ) : ℝ) =
      4294967296 * |Real.sin (i + 1)| := by
    push_cast
    ring
  rw [List.getElem_map, hangle, hscale] at hfloor
  rw [Rfc1321.T, hfloor, constant, List.getD_eq_getElem?_getD, List.getElem?_map,
    List.getElem?_eq_getElem hi']
  simp

/-- The unrolled `transform` is the compression function of RFC 1321. -/
theorem transform_eq_compress (r : Registers) (data : List UInt8) :
    transform r data = Rfc1321.compress Rfc1321.T r data := by
  have hview : ∀ v, view 64 v = v := fun v => rfl
  have hsteps : (List.range 64).foldl (Rfc1321.step constant (correctWords data)) r =
      (List.range 64).foldl (Rfc1321.step Rfc1321.T (correctWords data)) r := by
    apply List.foldl_ext
    intro v i hi
    rw [Rfc1321.step, constant_eq (List.mem_range.mp hi)]
    rfl
  unfold transform Rfc1321.compress
  rw [← hsteps, ← view_foldl, hview, ← statements_eq]
  rfl

end GwWeb.Md5sum
