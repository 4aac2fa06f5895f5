import GwWeb.ByteMemory
import Mathlib.Data.List.TakeWhile
import Mathlib.Data.Nat.Find

/-!
Texts in memory that go on without an end: C strings, and a parser that
knows one text.
-/

namespace TextReading

open ByteMemory

variable {α : Type*}

/-- The bytes from a pointer on. -/
abbrev Text := Nat → UInt8

/-- The bytes from `p` on. -/
def textAt (m : Memory) (p : Int) : Text := fun i => m (p + i)

/-- The characters of a C string: the bytes before the first NUL. -/
def cString (m : Memory) (p : Int) : Nat → Option UInt8 := fun i =>
  if ∀ j < i + 1, m (p + (j : Nat)) ≠ 0 then some (m (p + i)) else none

/-- The characters of a C string that ends inside the first `n` bytes. -/
def charsWithin (n : Nat) (m : Memory) (p : Int) : List UInt8 :=
  (bytesAt m p n).takeWhile fun b => b ≠ 0

/-- The bytes that `strlen` counts. -/
def stringBytes (s : String) : List UInt8 := s.toUTF8.data.toList.takeWhile fun b => b ≠ 0

/-- Memory from the start of a C string on. -/
structure CStr where
  bytes : Text
  ends : ∃ n, bytes n = 0

def CStr.strlen (s : CStr) : Nat := Nat.find s.ends

/-- The text begins with the payload. -/
def Begins (payload : List UInt8) (t : Text) : Prop := (List.range payload.length).map t = payload

instance (payload : List UInt8) (t : Text) : Decidable (Begins payload t) :=
  inferInstanceAs (Decidable (_ = _))

/-- A parser that knows one text: what does not begin with it has a syntax error. -/
def parseLiteral (text : List UInt8) (tree : α) (t : Text) : Option α :=
  if Begins text t then some tree else none

variable {text payload : List UInt8} {t : Text}

theorem CStr.strlen_eq_iff {s : CStr} {n : Nat} :
    s.strlen = n ↔ s.bytes n = 0 ∧ ∀ i < n, s.bytes i ≠ 0 := Nat.find_eq_iff s.ends

theorem CStr.bytes_strlen (s : CStr) : s.bytes s.strlen = 0 := Nat.find_spec s.ends

theorem CStr.bytes_ne_zero (s : CStr) {i : Nat} (hi : i < s.strlen) : s.bytes i ≠ 0 :=
  Nat.find_min s.ends hi

theorem stringBytes_ne_zero {s : String} {b : UInt8} (hb : b ∈ stringBytes s) : b ≠ 0 := by
  have hall : (stringBytes s).all (fun b => b ≠ 0) = true := List.all_takeWhile
  simpa using List.all_eq_true.mp hall b hb

theorem cString_congr {m m' : Memory} {p : Int} {n : Nat} (hnul : m (p + n) = 0)
    (h : ∀ i : Nat, i ≤ n → m (p + i) = m' (p + i)) : cString m p = cString m' p := by
  funext i
  have hnul' : m' (p + n) = 0 := (h n (Nat.le_refl n)) ▸ hnul
  by_cases hi : i < n
  · have hsame : (∀ j < i + 1, m (p + (j : Nat)) ≠ 0) ↔ ∀ j < i + 1, m' (p + (j : Nat)) ≠ 0 :=
      forall₂_congr fun j hj => by rw [h j (by omega)]
    simp only [cString, hsame, h i (by omega)]
  · rw [cString, cString, if_neg, if_neg]
    · exact fun hall => hall n (by omega) hnul'
    · exact fun hall => hall n (by omega) hnul

theorem cString_store (m m' : Memory) (p : Int) (bytes : List UInt8) :
    cString (store m p (bytes ++ [0])) p = cString (store m' p (bytes ++ [0])) p := by
  have hin : ∀ (m : Memory) (i : Nat), i ≤ bytes.length →
      store m p (bytes ++ [0]) (p + i) = (bytes ++ [0]).getD i 0 := by
    intro m i hi
    refine store_inside m p ?_
    rw [List.length_append, List.length_singleton]
    exact Nat.lt_succ_of_le hi
  refine cString_congr (n := bytes.length) ?_ fun i hi => ?_
  · rw [hin m _ (Nat.le_refl _)]
    simp
  · rw [hin m i hi, hin m' i hi]

theorem charsWithin_of_bytes {m : Memory} {p : Int} {n : Nat} {bytes rest : List UInt8}
    (h : bytesAt m p n = bytes ++ 0 :: rest) :
    charsWithin n m p = bytes.takeWhile fun b => b ≠ 0 := by
  rw [charsWithin, h, List.takeWhile_append]
  split
  · rename_i hall
    rw [(List.takeWhile_prefix _).eq_of_length hall]
    simp
  · rfl

theorem charsWithin_eq {m : Memory} {p : Int} {n : Nat} {chars rest : List UInt8}
    (h : bytesAt m p n = chars ++ 0 :: rest) (hchars : ∀ c ∈ chars, c ≠ 0) :
    charsWithin n m p = chars := by
  rw [charsWithin_of_bytes h, List.takeWhile_eq_self_iff]
  simpa using hchars

theorem begins_iff : Begins payload t ↔ ∀ i (hi : i < payload.length), t i = payload[i] := by
  constructor
  · intro h i hi
    have hget := List.getElem_of_eq h (i := i) (by simpa using hi)
    simpa using hget
  · intro h
    exact List.ext_getElem (by simp) fun i hi hi' => by simpa using h i hi'

theorem begins_of_isPrefix (hstarts : text <+: payload) (hbegins : Begins payload t) :
    Begins text t := by
  rw [begins_iff] at hbegins ⊢
  intro i hi
  rw [hbegins i (Nat.lt_of_lt_of_le hi hstarts.length_le), hstarts.getElem]

end TextReading
