import Mathlib.Data.List.Basic
import Mathlib.Tactic.Common

/-!
A ledger: what is saved is written once, in the order it was saved, each time with a
mark of its own.
-/

namespace OrderedLedger

variable {α ω : Type*}

/-- `lost` is what was meant to be saved and was not. -/
structure Ledger (α ω : Type*) where
  saved : List α
  lost : List α
  written : List (ω × α)
  order : written.map Prod.snd <+: saved

/-- An item is saved, is lost, or is written with a mark. -/
inductive Entry (α ω : Type*) where
  | save (x : α)
  | lose (x : α)
  | write (mark : ω)

def Entry.saved : Entry α ω → Option α
  | .save x => some x
  | _ => none

def Entry.lost : Entry α ω → Option α
  | .lose x => some x
  | _ => none

namespace Ledger

def empty : Ledger α ω where
  saved := []
  lost := []
  written := []
  order := List.nil_prefix

/-- What is saved and not written yet. -/
def waiting (L : Ledger α ω) : List α := L.saved.drop L.written.length

theorem written_append_waiting (L : Ledger α ω) :
    L.written.map Prod.snd ++ L.waiting = L.saved := by
  have htake := List.prefix_iff_eq_take.mp L.order
  rw [List.length_map] at htake
  rw [waiting, htake, List.take_append_drop]

def save (x : α) (L : Ledger α ω) : Ledger α ω :=
  { L with saved := L.saved ++ [x], order := L.order.trans (List.prefix_append _ _) }

def lose (x : α) (L : Ledger α ω) : Ledger α ω := { L with lost := L.lost ++ [x] }

/-- The first item that waits is written. -/
def write (mark : ω) (x : α) (rest : List α) (L : Ledger α ω) (h : L.waiting = x :: rest) :
    Ledger α ω where
  saved := L.saved
  lost := L.lost
  written := L.written ++ [(mark, x)]
  order := ⟨rest, by rw [← L.written_append_waiting, h]; simp⟩

/-- A mark is for what waits first; with nothing there it is for nothing. -/
def next (L : Ledger α ω) : Entry α ω → Ledger α ω
  | .save x => L.save x
  | .lose x => L.lose x
  | .write mark =>
      match h : L.waiting with
      | [] => L
      | x :: rest => L.write mark x rest h

/-- The ledger behind the entries. -/
def after (L : Ledger α ω) (entries : List (Entry α ω)) : Ledger α ω := entries.foldl next L

@[simp] theorem after_nil (L : Ledger α ω) : L.after [] = L := rfl

@[simp] theorem after_cons (L : Ledger α ω) (e : Entry α ω) (entries : List (Entry α ω)) :
    L.after (e :: entries) = (L.next e).after entries := rfl

theorem after_append (L : Ledger α ω) (entries later : List (Entry α ω)) :
    L.after (entries ++ later) = (L.after entries).after later := List.foldl_append

theorem waiting_empty : (empty : Ledger α ω).waiting = [] := rfl

theorem waiting_save (x : α) (L : Ledger α ω) : (L.save x).waiting = L.waiting ++ [x] := by
  have hle := L.order.length_le
  rw [List.length_map] at hle
  exact List.drop_append_of_le_length hle

theorem waiting_lose (x : α) (L : Ledger α ω) : (L.lose x).waiting = L.waiting := rfl

theorem waiting_write {mark : ω} {x : α} {rest : List α} {L : Ledger α ω}
    (h : L.waiting = x :: rest) : (L.write mark x rest h).waiting = rest := by
  have hsplit := (L.write mark x rest h).written_append_waiting
  have hsaved : (L.write mark x rest h).saved = L.saved := rfl
  have hwritten : (L.write mark x rest h).written = L.written ++ [(mark, x)] := rfl
  rw [hsaved, hwritten, ← L.written_append_waiting, h] at hsplit
  simpa using hsplit

theorem next_write {mark : ω} {x : α} {rest : List α} {L : Ledger α ω}
    (h : L.waiting = x :: rest) : L.next (.write mark) = L.write mark x rest h := by
  simp only [next]
  split
  · rename_i hnil
    cases h.symm.trans hnil
  · rename_i y rest' hcons
    obtain ⟨rfl, rfl⟩ := List.cons.inj (h.symm.trans hcons)
    rfl

theorem next_write_frame (L : Ledger α ω) (mark : ω) :
    (L.next (.write mark)).saved = L.saved ∧ (L.next (.write mark)).lost = L.lost := by
  simp only [next]
  split <;> exact ⟨rfl, rfl⟩

theorem next_saved (L : Ledger α ω) (e : Entry α ω) :
    (L.next e).saved = L.saved ++ e.saved.toList := by
  cases e with
  | save x => rfl
  | lose x => exact (List.append_nil _).symm
  | write mark => exact (L.next_write_frame mark).1.trans (List.append_nil _).symm

theorem next_lost (L : Ledger α ω) (e : Entry α ω) :
    (L.next e).lost = L.lost ++ e.lost.toList := by
  cases e with
  | save x => exact (List.append_nil _).symm
  | lose x => rfl
  | write mark => exact (L.next_write_frame mark).2.trans (List.append_nil _).symm

theorem after_saved (L : Ledger α ω) (entries : List (Entry α ω)) :
    (L.after entries).saved = L.saved ++ entries.filterMap Entry.saved ∧
      (L.after entries).lost = L.lost ++ entries.filterMap Entry.lost := by
  induction entries generalizing L with
  | nil => exact ⟨(List.append_nil _).symm, (List.append_nil _).symm⟩
  | cons e entries ih =>
      obtain ⟨hsaved, hlost⟩ := ih (L.next e)
      rw [after_cons, hsaved, hlost, next_saved, next_lost, List.append_assoc, List.append_assoc,
        List.filterMap_cons, List.filterMap_cons]
      constructor
      · cases e.saved <;> rfl
      · cases e.lost <;> rfl

end Ledger

end OrderedLedger
