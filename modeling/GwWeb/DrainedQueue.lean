import Mathlib.Data.List.ReduceOption
import Mathlib.Tactic.Common

/-!
A queue with one reader, which copies what it takes into a log until it takes
`none`. Data is queued until the reader is told to stop, never behind that.
-/

namespace DrainedQueue

variable {α : Type*}

/-- `queued` lists all data that was ever queued, `held` is what the reader took
and has not written yet. -/
structure Drain (α : Type*) where
  queued : List α
  items : List (Option α)
  held : Option α
  written : List α
  stopped : Bool

/-- No terminator is queued, and the reader has not met one. -/
def Drain.Open (d : Drain α) : Prop := none ∉ d.items ∧ d.stopped = false

/-- A push, the terminator, or the reader at the head of the queue. -/
inductive DrainStep : Drain α → Drain α → Prop where
  | push (d : Drain α) (a : α) (hopen : d.Open) :
      DrainStep d { d with queued := d.queued ++ [a], items := d.items ++ [some a] }
  | stop (d : Drain α) : DrainStep d { d with items := d.items ++ [none] }
  | take (d : Drain α) (a : α) (rest : List (Option α)) (hitems : d.items = some a :: rest)
      (hheld : d.held = none) : DrainStep d { d with items := rest, held := some a }
  | takeStop (d : Drain α) (rest : List (Option α)) (hitems : d.items = none :: rest)
      (hheld : d.held = none) : DrainStep d { d with items := rest, stopped := true }
  | put (d : Drain α) (a : α) (hheld : d.held = some a) :
      DrainStep d { d with held := none, written := d.written ++ [a] }

/-- Every datum that was queued is written, held or in the queue, in order and
once; only stops stand behind a stop, and a stopped reader has left nothing. -/
structure Accounted (d : Drain α) : Prop where
  order : d.written ++ d.held.toList ++ d.items.reduceOption = d.queued
  last : d.items.Pairwise fun x y => x = none → y = none
  done : d.stopped = true → d.held = none ∧ ∀ x ∈ d.items, x = none

theorem reduceOption_eq_nil {items : List (Option α)} (h : ∀ x ∈ items, x = none) :
    items.reduceOption = [] := by
  induction items with
  | nil => rfl
  | cons x xs ih =>
      rw [h x (by simp), List.reduceOption_cons_of_none]
      exact ih fun y hy => h y (by simp [hy])

theorem Accounted.written_eq_queued {d : Drain α} (h : Accounted d) (hstop : d.stopped = true) :
    d.written = d.queued := by
  obtain ⟨hheld, hnone⟩ := h.done hstop
  rw [← h.order, hheld, reduceOption_eq_nil hnone]
  simp

theorem Accounted.written_prefix {d : Drain α} (h : Accounted d) : d.written <+: d.queued :=
  ⟨d.held.toList ++ d.items.reduceOption, by rw [← List.append_assoc, h.order]⟩

theorem accounted_empty : Accounted (⟨[], [], none, [], false⟩ : Drain α) :=
  ⟨rfl, List.Pairwise.nil, by simp⟩

theorem Accounted.step {d d' : Drain α} (h : Accounted d) (hstep : DrainStep d d') :
    Accounted d' := by
  obtain ⟨horder, hlast, hdone⟩ := h
  cases hstep with
  | push a hopen =>
      refine ⟨?_, ?_, fun hstop => ?_⟩
      · simp [← horder, List.reduceOption_append, List.reduceOption_cons_of_some]
      · refine List.pairwise_append.mpr ⟨hlast, List.pairwise_singleton _ _, ?_⟩
        intro x hx y _ hnone
        exact absurd (hnone ▸ hx) hopen.1
      · rw [hopen.2] at hstop
        cases hstop
  | stop =>
      refine ⟨?_, ?_, fun hstop => ?_⟩
      · simp [← horder, List.reduceOption_append]
      · refine List.pairwise_append.mpr ⟨hlast, List.pairwise_singleton _ _, ?_⟩
        intro x _ y hy _
        exact List.mem_singleton.mp hy
      · obtain ⟨hheld, hnone⟩ := hdone hstop
        refine ⟨hheld, fun x hx => ?_⟩
        rcases List.mem_append.mp hx with hold | hnew
        · exact hnone x hold
        · exact List.mem_singleton.mp hnew
  | take a rest hitems hheld =>
      rw [hitems] at horder hlast hdone
      refine ⟨?_, (List.pairwise_cons.mp hlast).2, fun hstop => ?_⟩
      · simpa [hheld, List.reduceOption_cons_of_some] using horder
      · cases (hdone hstop).2 (some a) (by simp)
  | takeStop rest hitems hheld =>
      rw [hitems] at horder hlast
      obtain ⟨hbehind, hrest⟩ := List.pairwise_cons.mp hlast
      refine ⟨?_, hrest, fun _ => ⟨hheld, fun x hx => hbehind x hx rfl⟩⟩
      simpa [List.reduceOption_cons_of_none] using horder
  | put a hheld =>
      refine ⟨?_, hlast, fun hstop => ⟨rfl, (hdone hstop).2⟩⟩
      simpa [hheld] using horder

end DrainedQueue
