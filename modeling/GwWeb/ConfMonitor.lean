import GwWeb.Md5Digest

/-!
`monitor_conf_thread` of `event_process.c`: every turn of its loop compares the
digest of the configuration file with the one it last kept.
-/

namespace GwWeb.ConfMonitor

open Md5sum

/-- What one turn finds: the file, and the bytes that stand in `sum` and in the
buffer of the context, which nothing initialises. -/
structure Turn where
  file : Option FileReads
  sum : List UInt8
  buf : Vector UInt8 64

/-- `sum` behind `get_md5sum`, whose return value is not looked at. -/
def sumOf (t : Turn) : List UInt8 := (getMd5sum t.buf t.file).getD t.sum

/-- The file that `monitor_conf_thread` watches. -/
def confPath : String := "../conf/test_conf.json"

/-- One turn: `old_sum` behind it, and the `MSG_CONF_CHANGE` it posts. -/
def monitorTurn (oldSum : List UInt8) (t : Turn) : List UInt8 × Option String :=
  let sum := sumOf t
  if oldSum ≠ sum then (sum, some confPath) else (oldSum, none)

/-- What the turns of the loop post, from `old_sum` on. -/
def monitorLoop : List UInt8 → List Turn → List (Option String)
  | _, [] => []
  | oldSum, t :: ts => (monitorTurn oldSum t).2 :: monitorLoop (monitorTurn oldSum t).1 ts

/-- `monitor_conf_thread`: `first` is the `get_md5sum` in front of the loop. It
ends at once when `readfile` finds no file. -/
def monitorConfThread (readfile : Bool) (first : Turn) (turns : List Turn) :
    List (Option String) :=
  if readfile then monitorLoop (sumOf first) turns else []

/-- The bytes that `get_md5sum` finds; none if the file cannot be opened. -/
def Turn.content (t : Turn) : List UInt8 := (t.file.map FileReads.content).getD []

/-- The file is read to its end, and `md5_final` can count its bytes. -/
def Turn.Readable (t : Turn) : Prop :=
  (∃ fp, t.file = some fp ∧ fp.ferror = false) ∧ t.content.length < 2 ^ 38

theorem sumOf_readable {t : Turn} (h : t.Readable) : sumOf t = Rfc1321.md5 t.content := by
  obtain ⟨⟨fp, hfile, hferror⟩, hlength⟩ := h
  have hcontent : t.content = fp.content := by
    rw [Turn.content, hfile]
    rfl
  rw [hcontent] at hlength ⊢
  rw [← md5Final_readLoop t.buf fp hlength, sumOf, hfile, getMd5sum]
  simp [hferror]

theorem monitorTurn_fst (oldSum : List UInt8) (t : Turn) :
    (monitorTurn oldSum t).1 = sumOf t := by
  unfold monitorTurn
  simp only
  split
  · rfl
  · rename_i h
    exact not_not.mp h

theorem monitorTurn_snd (oldSum : List UInt8) (t : Turn) :
    (monitorTurn oldSum t).2 = if oldSum ≠ sumOf t then some confPath else none := by
  unfold monitorTurn
  simp only
  split <;> rfl

theorem monitorLoop_getElem (oldSum : List UInt8) (turns : List Turn) (i : Nat)
    (hi : i < turns.length) :
    (monitorLoop oldSum turns)[i]? =
      some (if (oldSum :: turns.map sumOf)[i]? ≠ (turns.map sumOf)[i]? then some confPath
        else none) := by
  induction turns generalizing oldSum i with
  | nil => cases hi
  | cons t ts ih =>
      cases i with
      | zero => simp [monitorLoop, monitorTurn_snd]
      | succ i =>
          have hlater := ih (monitorTurn oldSum t).1 i (Nat.lt_of_succ_lt_succ hi)
          rw [monitorTurn_fst] at hlater
          simpa [monitorLoop, monitorTurn_fst] using hlater

theorem monitorLoop_length (oldSum : List UInt8) (turns : List Turn) :
    (monitorLoop oldSum turns).length = turns.length := by
  induction turns generalizing oldSum with
  | nil => rfl
  | cons t ts ih => simp [monitorLoop, ih]

/-- A change is posted at just those turns that find a file of another digest
than the turn before. -/
theorem posts_changes (first : Turn) (turns : List Turn)
    (hreadable : ∀ t ∈ first :: turns, t.Readable) :
    (monitorConfThread true first turns).length = turns.length ∧
      ∀ i < turns.length,
        (monitorConfThread true first turns)[i]? =
          some (if ((first :: turns).map fun t => Rfc1321.md5 t.content)[i]? ≠
              (turns.map fun t => Rfc1321.md5 t.content)[i]?
            then some confPath else none) := by
  have hsums : turns.map sumOf = turns.map fun t => Rfc1321.md5 t.content :=
    List.map_congr_left fun t ht => sumOf_readable (hreadable t (List.mem_cons_of_mem _ ht))
  refine ⟨monitorLoop_length _ _, ?_⟩
  intro i hi
  rw [List.map_cons, ← hsums, ← sumOf_readable (hreadable first List.mem_cons_self)]
  exact monitorLoop_getElem (sumOf first) turns i hi

def turnOf (freads : List (List UInt8)) : Turn :=
  { file := some { freads, ferror := false }, sum := [], buf := Vector.replicate 64 0 }

theorem turnOf_readable (freads : List (List UInt8))
    (hlength : (turnOf freads).content.length < 2 ^ 38) : (turnOf freads).Readable :=
  ⟨⟨_, rfl, rfl⟩, hlength⟩

/-- The file is touched, and then changed. -/
theorem posts_changes_touched :
    monitorConfThread true (turnOf [[97, 98], [99]])
        [turnOf [[97], [98, 99]], turnOf [[97, 98, 100]]] = [none, some confPath] := by
  have hreadable : ∀ t ∈ [turnOf [[97, 98], [99]], turnOf [[97], [98, 99]], turnOf [[97, 98, 100]]],
      t.Readable := by
    simp only [List.forall_mem_cons]
    exact ⟨turnOf_readable _ (by decide), turnOf_readable _ (by decide),
      turnOf_readable _ (by decide), by simp⟩
  obtain ⟨hlength, hposts⟩ := posts_changes _ _ hreadable
  have hsame : (turnOf [[97, 98], [99]]).content = (turnOf [[97], [98, 99]]).content := rfl
  have hchanged : Rfc1321.md5 (turnOf [[97], [98, 99]]).content ≠
      Rfc1321.md5 (turnOf [[97, 98, 100]]).content := by
    rw [← sumOf_readable (turnOf_readable _ (by decide)),
      ← sumOf_readable (turnOf_readable _ (by decide))]
    decide +kernel
  have hfirst := hposts 0 (by decide)
  have hsecond := hposts 1 (by decide)
  simp only [List.map_cons, List.map_nil, List.getElem?_cons_zero, List.getElem?_cons_succ, ne_eq,
    Option.some.injEq, hsame, hchanged, not_true_eq_false, not_false_eq_true, if_false,
    if_true] at hfirst hsecond
  refine List.ext_getElem? fun i => ?_
  rcases i with - | - | i
  · exact hfirst
  · exact hsecond
  · have hle : 2 ≤ i + 2 := Nat.le_add_left 2 i
    rw [List.getElem?_eq_none (hlength.trans_le hle), List.getElem?_eq_none hle]

end GwWeb.ConfMonitor
