import GwWeb.TextReading

/-!
Where a JSON text ends. The scanner reads the beginning of a text byte by byte and tells
whether it holds a complete value, has a syntax error, or can still go on.
-/

namespace JsonScanner

open TextReading

/-- What an element is in. -/
inductive Container where
  | array
  | object
  deriving DecidableEq

/-- What of a number has been read. -/
inductive NumberPlace where
  | minus
  | zero
  | int
  | point
  | frac
  | e
  | sign
  | exp
  deriving DecidableEq

/-- What is to come: a value, or what may stand at this place inside one. `element` and
`member` are the places behind an opening bracket, `behind` is the one behind a value in
a container; a string is a value, or the key of a member. -/
inductive Place where
  | value
  | element
  | member
  | key
  | colon
  | behind (container : Container)
  | literal (next : UInt8) (rest : List UInt8)
  | number (place : NumberPlace)
  | string (isKey : Bool)
  | escape (isKey : Bool)
  | hex (isKey : Bool) (left : Nat)
  deriving DecidableEq

/-- `reading` holds the containers that are still open, the innermost first. -/
inductive Scan where
  | reading (place : Place) (opened : List Container)
  | complete
  | invalid
  deriving DecidableEq

def isBlank (b : UInt8) : Bool := b = 32 || b = 9 || b = 10 || b = 13

def isDigit (b : UInt8) : Bool := 48 ≤ b && b ≤ 57

def isHex (b : UInt8) : Bool := isDigit b || (65 ≤ b && b ≤ 70) || (97 ≤ b && b ≤ 102)

/-- What may stand behind a backslash, but for `u`. -/
def isEscape (b : UInt8) : Bool :=
  b = 34 || b = 92 || b = 47 || b = 98 || b = 102 || b = 110 || b = 114 || b = 116

def isExponent (b : UInt8) : Bool := b = 101 || b = 69

/-- The place in a number behind one more byte, if it belongs to the number. -/
def NumberPlace.next (b : UInt8) : NumberPlace → Option NumberPlace
  | .minus => if b = 48 then some .zero else if isDigit b then some .int else none
  | .zero => if b = 46 then some .point else if isExponent b then some .e else none
  | .int =>
      if isDigit b then some .int
      else if b = 46 then some .point else if isExponent b then some .e else none
  | .point => if isDigit b then some .frac else none
  | .frac => if isDigit b then some .frac else if isExponent b then some .e else none
  | .e => if b = 43 || b = 45 then some .sign else if isDigit b then some .exp else none
  | .sign => if isDigit b then some .exp else none
  | .exp => if isDigit b then some .exp else none

/-- The number may end here. -/
def NumberPlace.ends : NumberPlace → Bool
  | .zero | .int | .frac | .exp => true
  | .minus | .point | .e | .sign => false

/-- Behind a value, which is the whole text or part of a container. -/
def valueDone : List Container → Scan
  | [] => .complete
  | container :: opened => .reading (.behind container) opened

/-- The byte that a value begins with. -/
def firstOfValue (b : UInt8) (opened : List Container) : Scan :=
  if b = 34 then .reading (.string false) opened
  else if b = 91 then .reading .element (.array :: opened)
  else if b = 123 then .reading .member (.object :: opened)
  else if b = 45 then .reading (.number .minus) opened
  else if b = 48 then .reading (.number .zero) opened
  else if isDigit b then .reading (.number .int) opened
  else if b = 116 then .reading (.literal 114 [117, 101]) opened
  else if b = 102 then .reading (.literal 97 [108, 115, 101]) opened
  else if b = 110 then .reading (.literal 117 [108, 108]) opened
  else .invalid

/-- A byte behind a value in a container. -/
def behindValue (b : UInt8) (opened : List Container) : Container → Scan
  | .array =>
      if isBlank b then .reading (.behind .array) opened
      else if b = 44 then .reading .value (.array :: opened)
      else if b = 93 then valueDone opened
      else .invalid
  | .object =>
      if isBlank b then .reading (.behind .object) opened
      else if b = 44 then .reading .key (.object :: opened)
      else if b = 125 then valueDone opened
      else .invalid

/-- The byte behind a number belongs to what is behind it. -/
def behindNumber (b : UInt8) : List Container → Scan
  | [] => .complete
  | container :: opened => behindValue b opened container

/-- One byte, by the place it is read at. -/
def readPlace (b : UInt8) (opened : List Container) : Place → Scan
  | .value => if isBlank b then .reading .value opened else firstOfValue b opened
  | .element =>
      if isBlank b then .reading .element opened
      else if b = 93 then valueDone opened.tail
      else firstOfValue b opened
  | .member =>
      if isBlank b then .reading .member opened
      else if b = 34 then .reading (.string true) opened
      else if b = 125 then valueDone opened.tail
      else .invalid
  | .key =>
      if isBlank b then .reading .key opened
      else if b = 34 then .reading (.string true) opened
      else .invalid
  | .colon =>
      if isBlank b then .reading .colon opened
      else if b = 58 then .reading .value opened
      else .invalid
  | .behind container => behindValue b opened container
  | .literal next [] => if b = next then valueDone opened else .invalid
  | .literal next (c :: rest) => if b = next then .reading (.literal c rest) opened else .invalid
  | .number place =>
      match place.next b with
      | some place => .reading (.number place) opened
      | none => if place.ends then behindNumber b opened else .invalid
  | .string isKey =>
      if b = 34 then (if isKey then .reading .colon opened else valueDone opened)
      else if b = 92 then .reading (.escape isKey) opened
      else if b < 32 then .invalid
      else .reading (.string isKey) opened
  | .escape isKey =>
      if isEscape b then .reading (.string isKey) opened
      else if b = 117 then .reading (.hex isKey 3) opened
      else .invalid
  | .hex isKey left =>
      if isHex b then
        match left with
        | 0 => .reading (.string isKey) opened
        | left + 1 => .reading (.hex isKey left) opened
      else .invalid

/-- One byte; what has come to its end stays there. -/
def Scan.step (s : Scan) (b : UInt8) : Scan :=
  match s with
  | .reading place opened => readPlace b opened place
  | .complete => .complete
  | .invalid => .invalid

/-- The scan behind these bytes. -/
def Scan.through (s : Scan) (bytes : List UInt8) : Scan := bytes.foldl Scan.step s

def scan (bytes : List UInt8) : Scan := (Scan.reading .value []).through bytes

/-- The text has come to its end: with a value, or with a syntax error. -/
def Finished (bytes : List UInt8) : Prop := scan bytes = .complete ∨ scan bytes = .invalid

instance (bytes : List UInt8) : Decidable (Finished bytes) := inferInstanceAs (Decidable (_ ∨ _))

/-- The bytes, with NUL bytes behind them. -/
def textOf (bytes : List UInt8) : Text := fun i => bytes.getD i 0

/-- A parser for JSON: it reads no further than to the end of the value, and returns
nothing for a text with a syntax error. -/
structure ReadsJson {Tree : Type} (parse : Text → Option Tree) : Prop where
  stops : ∀ bytes t t', scan bytes = .complete → Begins bytes t → Begins bytes t' →
    parse t = parse t'
  accepts : ∀ bytes t, scan bytes = .complete → Begins bytes t → parse t ≠ none
  refuses : ∀ bytes t, scan bytes = .invalid → Begins bytes t → parse t = none

/-- A number that stands alone and ends in the digits of its exponent, where nothing behind
it changes what it is parsed to: `0e5` stays 0. -/
def IdleExponent {Tree : Type} (parse : Text → Option Tree) (bytes : List UInt8) : Prop :=
  scan bytes = .reading (.number .exp) [] ∧ ∀ t, Begins bytes t → parse t = parse (textOf bytes)

variable {bytes more : List UInt8} {place : Place} {opened : List Container} {b : UInt8} {t : Text}

theorem Scan.through_append (s : Scan) (bytes more : List UInt8) :
    s.through (bytes ++ more) = (s.through bytes).through more := List.foldl_append

theorem scan_append (bytes more : List UInt8) : scan (bytes ++ more) = (scan bytes).through more :=
  Scan.through_append _ _ _

theorem complete_through (bytes : List UInt8) : Scan.complete.through bytes = .complete := by
  induction bytes with
  | nil => rfl
  | cons b bytes ih => exact ih

theorem invalid_through (bytes : List UInt8) : Scan.invalid.through bytes = .invalid := by
  induction bytes with
  | nil => rfl
  | cons b bytes ih => exact ih

theorem begins_textOf (bytes : List UInt8) : Begins bytes (textOf bytes) :=
  List.ext_getElem (by simp) fun i hi hi' => by simp [textOf, hi']

theorem exists_closing (opened : List Container) :
    ∃ bytes, (valueDone opened).through bytes = .complete := by
  induction opened with
  | nil => exact ⟨[], rfl⟩
  | cons container opened ih =>
      obtain ⟨bytes, hbytes⟩ := ih
      cases container with
      | array => exact ⟨93 :: bytes, hbytes⟩
      | object => exact ⟨125 :: bytes, hbytes⟩

theorem literal_through (next : UInt8) (rest : List UInt8) (opened : List Container) :
    (Scan.reading (.literal next rest) opened).through (next :: rest) = valueDone opened := by
  induction rest generalizing next with
  | nil => simp [Scan.through, Scan.step, readPlace]
  | cons c rest ih =>
      have hstep : (Scan.reading (.literal next (c :: rest)) opened).step next =
          .reading (.literal c rest) opened := by simp [Scan.step, readPlace]
      rw [Scan.through, List.foldl_cons, hstep]
      exact ih c

theorem hex_through (isKey : Bool) (left : Nat) (opened : List Container) :
    (Scan.reading (.hex isKey left) opened).through (List.replicate (left + 1) 48) =
      .reading (.string isKey) opened := by
  induction left with
  | zero => rfl
  | succ left ih => exact ih

theorem string_through (isKey : Bool) (opened : List Container) :
    ∃ bytes, (Scan.reading (.string isKey) opened).through bytes = valueDone opened := by
  cases isKey with
  | false => exact ⟨[34], rfl⟩
  | true => exact ⟨[34, 58, 34, 34], rfl⟩

theorem number_through (place : NumberPlace) (opened : List Container) :
    ∃ bytes, (Scan.reading (.number place) opened).through bytes = valueDone opened := by
  have hblank : behindNumber 32 opened = valueDone opened := by
    rcases opened with - | ⟨container, opened⟩
    · rfl
    · cases container <;> rfl
  cases place with
  | zero | int | frac | exp => exact ⟨[32], hblank⟩
  | minus | point | e | sign => exact ⟨[48, 32], hblank⟩

theorem exists_valueDone (place : Place) (opened : List Container) :
    ∃ bytes opened', (Scan.reading place opened).through bytes = valueDone opened' := by
  cases place with
  | value => exact ⟨[34, 34], opened, rfl⟩
  | element => exact ⟨[93], opened.tail, rfl⟩
  | member => exact ⟨[125], opened.tail, rfl⟩
  | key => exact ⟨[34, 34, 58, 34, 34], opened, rfl⟩
  | colon => exact ⟨[58, 34, 34], opened, rfl⟩
  | behind container => exact ⟨[], container :: opened, rfl⟩
  | literal next rest => exact ⟨next :: rest, opened, literal_through next rest opened⟩
  | number place =>
      obtain ⟨bytes, hbytes⟩ := number_through place opened
      exact ⟨bytes, opened, hbytes⟩
  | string isKey =>
      obtain ⟨bytes, hbytes⟩ := string_through isKey opened
      exact ⟨bytes, opened, hbytes⟩
  | escape isKey =>
      obtain ⟨bytes, hbytes⟩ := string_through isKey opened
      exact ⟨110 :: bytes, opened, hbytes⟩
  | hex isKey left =>
      obtain ⟨bytes, hbytes⟩ := string_through isKey opened
      refine ⟨List.replicate (left + 1) 48 ++ bytes, opened, ?_⟩
      rw [Scan.through_append, hex_through, hbytes]

theorem exists_completes (h : scan bytes = .reading place opened) :
    ∃ more, scan (bytes ++ more) = .complete := by
  obtain ⟨value, opened', hvalue⟩ := exists_valueDone place opened
  obtain ⟨closing, hclosing⟩ := exists_closing opened'
  refine ⟨value ++ closing, ?_⟩
  rw [scan_append, h, Scan.through_append, hvalue, hclosing]

/-- The value that is being read can be spoilt, unless it is a number that stands alone
and has come to the digits of its exponent. -/
theorem exists_spoilt (hexp : ¬ (place = .number .exp ∧ opened = [])) :
    ∃ bytes, (Scan.reading place opened).through bytes = .invalid := by
  cases place with
  | value | element | member | key | colon | escape | hex => exact ⟨[0], rfl⟩
  | string isKey => exact ⟨[0], rfl⟩
  | behind container => cases container <;> exact ⟨[0], rfl⟩
  | literal next rest =>
      refine ⟨[next + 1], ?_⟩
      cases rest <;> simp [Scan.through, Scan.step, readPlace]
  | number place =>
      have hbehind : opened ≠ [] → behindNumber 0 opened = .invalid := by
        intro hne
        rcases opened with - | ⟨container, opened⟩
        · exact absurd rfl hne
        · cases container <;> rfl
      cases place with
      | minus | point | e | sign => exact ⟨[0], rfl⟩
      | zero | int => exact ⟨[46, 0], rfl⟩
      | frac => exact ⟨[101, 0], rfl⟩
      | exp => exact ⟨[0], hbehind fun hnil => hexp ⟨rfl, hnil⟩⟩

/-- Exactly what has come to its end is parsed alike whatever stands behind it, and a
number that nothing changes any more. -/
theorem ReadsJson.fixed_iff {Tree : Type} {parse : Text → Option Tree} (h : ReadsJson parse)
    (bytes : List UInt8) :
    (∀ t t', Begins bytes t → Begins bytes t' → parse t = parse t') ↔
      Finished bytes ∨ IdleExponent parse bytes := by
  constructor
  · intro hfixed
    cases hscan : scan bytes with
    | complete => exact .inl (.inl hscan)
    | invalid => exact .inl (.inr hscan)
    | reading place opened =>
        by_cases hexp : place = .number .exp ∧ opened = []
        · obtain ⟨rfl, rfl⟩ := hexp
          exact .inr ⟨hscan, fun t ht => hfixed t _ ht (begins_textOf bytes)⟩
        · obtain ⟨more, hmore⟩ := exists_completes hscan
          obtain ⟨spoilt, hspoilt⟩ := exists_spoilt hexp
          have hinvalid : scan (bytes ++ spoilt) = .invalid := by rw [scan_append, hscan, hspoilt]
          have hbegins : ∀ more, Begins bytes (textOf (bytes ++ more)) := fun more =>
            begins_of_isPrefix (List.prefix_append bytes more) (begins_textOf _)
          have hsame := hfixed _ _ (hbegins more) (hbegins spoilt)
          rw [h.refuses _ _ hinvalid (begins_textOf _)] at hsame
          exact absurd hsame (h.accepts _ _ hmore (begins_textOf _))
  · rintro (hfinished | hidle) t t' hbegins hbegins'
    · rcases hfinished with hcomplete | hinvalid
      · exact h.stops bytes t t' hcomplete hbegins hbegins'
      · rw [h.refuses bytes t hinvalid hbegins, h.refuses bytes t' hinvalid hbegins']
    · rw [hidle.2 t hbegins, hidle.2 t' hbegins']

section Parser

variable {Tree : Type} (tree : List UInt8 → Tree)

open Classical in
/-- The parser that makes a tree of the text of the first value. -/
noncomputable def parseJson (t : Text) : Option Tree :=
  if h : ∃ n, scan ((List.range n).map t) = .complete then
    some (tree ((List.range (Nat.find h)).map t))
  else none

theorem take_of_begins (h : Begins bytes t) {n : Nat} (hn : n ≤ bytes.length) :
    (List.range n).map t = bytes.take n := by
  refine List.ext_getElem (by simp [hn]) fun i hi _ => ?_
  have hlt : i < bytes.length := Nat.lt_of_lt_of_le (by simpa using hi) hn
  simpa using begins_iff.mp h i hlt

theorem exists_value (h : scan bytes = .complete) :
    ∃ value, value <+: bytes ∧ scan value = .complete ∧
      ∀ n < value.length, scan (value.take n) ≠ .complete := by
  have hexists : ∃ n, scan (bytes.take n) = .complete := ⟨bytes.length, by rwa [List.take_length]⟩
  refine ⟨bytes.take (Nat.find hexists), List.take_prefix _ _, Nat.find_spec hexists, ?_⟩
  intro n hn
  have hlt : n < Nat.find hexists := Nat.lt_of_lt_of_le hn (List.length_take_le _ _)
  rw [List.take_take, Nat.min_eq_left (Nat.le_of_lt hlt)]
  exact Nat.find_min hexists hlt

theorem parseJson_of_value (hcomplete : scan bytes = .complete)
    (hfirst : ∀ n < bytes.length, scan (bytes.take n) ≠ .complete) (hbegins : Begins bytes t) :
    parseJson tree t = some (tree bytes) := by
  have hall : (List.range bytes.length).map t = bytes := hbegins
  have hexists : ∃ n, scan ((List.range n).map t) = .complete :=
    ⟨bytes.length, by rw [hall, hcomplete]⟩
  have hfind : Nat.find hexists = bytes.length := by
    refine (Nat.find_eq_iff hexists).mpr ⟨by rw [hall, hcomplete], fun n hn => ?_⟩
    rw [take_of_begins hbegins (Nat.le_of_lt hn)]
    exact hfirst n hn
  rw [parseJson, dif_pos hexists, hfind, hall]

theorem parseJson_readsJson : ReadsJson (parseJson tree) := by
  have hparsed : ∀ bytes, scan bytes = .complete → ∃ value, ∀ t, Begins bytes t →
      parseJson tree t = some (tree value) := by
    intro bytes hcomplete
    obtain ⟨value, hprefix, hvalue, hfirst⟩ := exists_value hcomplete
    exact ⟨value, fun t hbegins =>
      parseJson_of_value tree hvalue hfirst (begins_of_isPrefix hprefix hbegins)⟩
  refine ⟨fun bytes t t' hcomplete hbegins hbegins' => ?_, fun bytes t hcomplete hbegins => ?_,
    fun bytes t hinvalid hbegins => ?_⟩
  · obtain ⟨value, hvalue⟩ := hparsed bytes hcomplete
    rw [hvalue t hbegins, hvalue t' hbegins']
  · obtain ⟨value, hvalue⟩ := hparsed bytes hcomplete
    simp [hvalue t hbegins]
  · refine dif_neg ?_
    rintro ⟨n, hn⟩
    rcases Nat.le_total n bytes.length with hle | hle
    · have hsplit : scan bytes = (scan (bytes.take n)).through (bytes.drop n) := by
        rw [← scan_append, List.take_append_drop]
      rw [← take_of_begins hbegins hle, hn, complete_through, hinvalid] at hsplit
      cases hsplit
    · obtain ⟨k, rfl⟩ := Nat.exists_eq_add_of_le hle
      have hall : (List.range bytes.length).map t = bytes := hbegins
      rw [List.range_add, List.map_append, hall, scan_append, hinvalid, invalid_through] at hn
      cases hn

end Parser

end JsonScanner
