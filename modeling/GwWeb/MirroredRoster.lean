import Mathlib.Logic.Relation
import GwWeb.FirstMatch

/-!
A roster of keyed entries that can be switched on and off, and a second list
that should hold the keys of the entries that are on. Entries are found by key,
so with repeated keys only the first entry is ever switched.
-/

namespace MirroredRoster

open FirstMatch
open Relation

variable {κ : Type*}

/-- Keys, with whether they are on. -/
abbrev Entries (κ : Type*) := List (κ × Bool)

/-- Entries beside a list of members. -/
structure Roster (κ : Type*) where
  entries : Entries κ
  members : List κ

/-- Only the first entry with a key can be on. -/
def FirstOnly (entries : Entries κ) : Prop :=
  entries.Pairwise fun x y => x.1 = y.1 → y.2 = false

/-- Whoever is on is a member. -/
structure Covers (r : Roster κ) : Prop where
  first : FirstOnly r.entries
  mem : ∀ c, (c, true) ∈ r.entries → c ∈ r.members

/-- The members are the keys of the entries that are on, each once. -/
structure Mirrors (r : Roster κ) : Prop where
  first : FirstOnly r.entries
  nodup : r.members.Nodup
  mem_iff : ∀ c, c ∈ r.members ↔ (c, true) ∈ r.entries

theorem Mirrors.covers {r : Roster κ} (h : Mirrors r) : Covers r :=
  ⟨h.first, fun c hc => (h.mem_iff c).mpr hc⟩

theorem mirrors_empty : Mirrors (⟨[], []⟩ : Roster κ) :=
  ⟨List.Pairwise.nil, List.nodup_nil, by simp⟩

theorem FirstOnly.tail {x : κ × Bool} {entries : Entries κ} (h : FirstOnly (x :: entries)) :
    FirstOnly entries := (List.pairwise_cons.mp h).2

theorem FirstOnly.not_mem {c : κ} {on : Bool} {entries : Entries κ}
    (h : FirstOnly ((c, on) :: entries)) : (c, true) ∉ entries := by
  intro hmem
  simpa using (List.pairwise_cons.mp h).1 _ hmem rfl

theorem FirstOnly.enter {entries : Entries κ} (h : FirstOnly entries) (c : κ) :
    FirstOnly (entries ++ [(c, false)]) := by
  refine List.pairwise_append.mpr ⟨h, List.pairwise_singleton _ _, ?_⟩
  intro x _ y hy _
  rw [List.mem_singleton.mp hy]

theorem Covers.again {r : Roster κ} (h : Covers r) (c : κ) :
    Covers ⟨r.entries, r.members ++ [c]⟩ :=
  ⟨h.first, fun d hd => List.mem_append_left _ (h.mem d hd)⟩

variable [DecidableEq κ]

/-- The first entry with a key is switched. -/
def switch (c : κ) (on : Bool) (entries : Entries κ) : Entries κ :=
  updateFirst (fun x => x.1 = c) (fun x => (x.1, on)) entries

/-- The first entry with a key is on. -/
def isOn (c : κ) (entries : Entries κ) : Bool :=
  (entries.find? fun x => x.1 = c).any Prod.snd

/-- What may happen to a roster that is kept properly. -/
inductive RosterStep : Roster κ → Roster κ → Prop where
  | enter (entries : Entries κ) (members : List κ) (c : κ) :
      RosterStep ⟨entries, members⟩ ⟨entries ++ [(c, false)], members⟩
  | switchOn (entries : Entries κ) (members : List κ) (c : κ) (hc : c ∈ entries.map Prod.fst) :
      RosterStep ⟨entries, members⟩
        ⟨switch c true entries, if c ∈ members then members else members ++ [c]⟩
  | switchOff (entries : Entries κ) (members : List κ) (c : κ) :
      RosterStep ⟨entries, members⟩ ⟨switch c false entries, members.erase c⟩
  | leave (entries : Entries κ) (members : List κ) (c : κ) :
      RosterStep ⟨entries, members⟩
        ⟨entries.eraseP fun x => x.1 = c, if isOn c entries then members.erase c else members⟩

theorem isOn_iff {entries : Entries κ} (h : FirstOnly entries) (c : κ) :
    isOn c entries = true ↔ (c, true) ∈ entries := by
  induction entries with
  | nil => simp [isOn]
  | cons x entries ih =>
      rcases x with ⟨d, on⟩
      rcases eq_or_ne d c with hd | hd
      · subst hd
        have hlater := h.not_mem
        simp [isOn, hlater, eq_comm]
      · have hrest := ih h.tail
        simp only [isOn] at hrest
        simpa [isOn, hd, Ne.symm hd] using hrest

theorem find?_of_firstOnly {α : Type*} (key : α → κ) (on : α → Bool) {l : List α}
    (h : FirstOnly (l.map fun x => (key x, on x))) {x : α} (hx : x ∈ l) (hon : on x = true) :
    (l.find? fun y => key y = key x) = some x := by
  induction l with
  | nil => cases hx
  | cons y ys ih =>
      rcases List.mem_cons.mp hx with rfl | htail
      · simp
      · have hne : key y ≠ key x := by
          intro heq
          have hoff := (List.pairwise_cons.mp h).1 (key x, on x)
            (List.mem_map.mpr ⟨x, htail, rfl⟩) heq
          rw [hon] at hoff
          cases hoff
        rw [List.find?_cons_of_neg (by simpa using hne)]
        exact ih h.tail htail

theorem mem_switch_ne {c d : κ} (hd : d ≠ c) (on b : Bool) (entries : Entries κ) :
    (d, b) ∈ switch c on entries ↔ (d, b) ∈ entries := by
  induction entries with
  | nil => simp [switch, updateFirst]
  | cons x entries ih =>
      rcases x with ⟨e, flag⟩
      simp only [switch, updateFirst] at ih ⊢
      rcases eq_or_ne e c with he | he
      · subst he
        simp [hd]
      · simp [he, ih]

theorem mem_switch_self {c : κ} {entries : Entries κ} (h : FirstOnly entries) (on : Bool) :
    (c, true) ∈ switch c on entries ↔ on = true ∧ c ∈ entries.map Prod.fst := by
  induction entries with
  | nil => simp [switch, updateFirst]
  | cons x entries ih =>
      rcases x with ⟨e, flag⟩
      have hrest := ih h.tail
      simp only [switch, updateFirst] at hrest ⊢
      rcases eq_or_ne e c with he | he
      · subst he
        have hlater := h.not_mem
        simp [hlater, eq_comm]
      · simp [he, Ne.symm he, hrest]

theorem mem_leave {c d : κ} {entries : Entries κ} (h : FirstOnly entries) :
    (d, true) ∈ entries.eraseP (fun x => x.1 = c) ↔ d ≠ c ∧ (d, true) ∈ entries := by
  induction entries with
  | nil => simp
  | cons x entries ih =>
      rcases x with ⟨e, flag⟩
      rcases eq_or_ne e c with he | he
      · subst he
        have hlater := h.not_mem
        rcases eq_or_ne d e with hd | hd
        · simp [hd, hlater]
        · simp [hd]
      · have hrest := ih h.tail
        rcases eq_or_ne d e with hd | hd
        · subst hd
          simp [he, hrest]
        · simp [he, hd, hrest]

theorem FirstOnly.switch {entries : Entries κ} (h : FirstOnly entries) (c : κ) (on : Bool) :
    FirstOnly (switch c on entries) := by
  induction entries with
  | nil => simpa [MirroredRoster.switch, updateFirst] using h
  | cons x entries ih =>
      rcases x with ⟨e, flag⟩
      have hhead := (List.pairwise_cons.mp h).1
      simp only [MirroredRoster.switch, updateFirst]
      rcases eq_or_ne e c with he | he
      · simp only [he, decide_true, if_true]
        subst he
        exact List.pairwise_cons.mpr ⟨hhead, h.tail⟩
      · simp only [he, decide_false, Bool.false_eq_true, if_false]
        refine List.pairwise_cons.mpr ⟨?_, ih h.tail⟩
        rintro ⟨d, b⟩ hmem rfl
        exact hhead (e, b) ((mem_switch_ne he on b entries).mp hmem) rfl

theorem FirstOnly.leave {entries : Entries κ} (h : FirstOnly entries) (c : κ) :
    FirstOnly (entries.eraseP fun x => x.1 = c) :=
  h.sublist List.eraseP_sublist

theorem Covers.step {r r' : Roster κ} (h : Covers r) (hstep : RosterStep r r') : Covers r' := by
  obtain ⟨hfirst, hmem⟩ := h
  cases hstep with
  | enter entries members c =>
      refine ⟨hfirst.enter c, ?_⟩
      intro d hd
      exact hmem d (by simpa using hd)
  | switchOn entries members c hc =>
      refine ⟨hfirst.switch c true, ?_⟩
      intro d hd
      change d ∈ if c ∈ members then members else members ++ [c]
      rcases eq_or_ne d c with hdc | hdc
      · subst hdc
        split
        · assumption
        · simp
      · have hold := hmem d ((mem_switch_ne hdc _ _ _).mp hd)
        split
        · exact hold
        · simp [hold]
  | switchOff entries members c =>
      refine ⟨hfirst.switch c false, ?_⟩
      intro d hd
      rcases eq_or_ne d c with hdc | hdc
      · subst hdc
        simp [mem_switch_self hfirst] at hd
      · exact (List.mem_erase_of_ne hdc).mpr (hmem d ((mem_switch_ne hdc _ _ _).mp hd))
  | leave entries members c =>
      refine ⟨hfirst.leave c, ?_⟩
      intro d hd
      obtain ⟨hdc, hold⟩ := (mem_leave hfirst).mp hd
      change d ∈ if isOn c entries then members.erase c else members
      split
      · exact (List.mem_erase_of_ne hdc).mpr (hmem d hold)
      · exact hmem d hold

theorem Mirrors.step {r r' : Roster κ} (h : Mirrors r) (hstep : RosterStep r r') : Mirrors r' := by
  have hcovers := h.covers.step hstep
  obtain ⟨hfirst, hnodup, hiff⟩ := h
  cases hstep with
  | enter entries members c =>
      refine ⟨hcovers.first, hnodup, ?_⟩
      intro d
      simpa using hiff d
  | switchOn entries members c hc =>
      refine ⟨hcovers.first, ?_, fun d => ⟨?_, hcovers.mem d⟩⟩
      · change (if c ∈ members then members else members ++ [c]).Nodup
        split
        · exact hnodup
        · rename_i hnew
          exact List.nodup_append.mpr ⟨hnodup, List.nodup_singleton c, by
            intro a ha b hb hab
            rw [List.mem_singleton.mp hb] at hab
            exact hnew (hab ▸ ha)⟩
      · intro hd
        rcases eq_or_ne d c with hdc | hdc
        · subst hdc
          exact (mem_switch_self hfirst true).mpr ⟨rfl, hc⟩
        · refine (mem_switch_ne hdc true true entries).mpr ((hiff d).mp ?_)
          change d ∈ if c ∈ members then members else members ++ [c] at hd
          split at hd
          · exact hd
          · simpa [hdc] using hd
  | switchOff entries members c =>
      refine ⟨hcovers.first, hnodup.erase c, fun d => ⟨?_, hcovers.mem d⟩⟩
      intro hd
      obtain ⟨hdc, hold⟩ := (hnodup.mem_erase_iff).mp hd
      exact (mem_switch_ne hdc false true entries).mpr ((hiff d).mp hold)
  | leave entries members c =>
      refine ⟨hcovers.first, ?_, fun d => ⟨?_, hcovers.mem d⟩⟩
      · change (if isOn c entries then members.erase c else members).Nodup
        split
        · exact hnodup.erase c
        · exact hnodup
      · intro hd
        change d ∈ if isOn c entries then members.erase c else members at hd
        split at hd
        · obtain ⟨hdc, hold⟩ := (hnodup.mem_erase_iff).mp hd
          exact (mem_leave hfirst).mpr ⟨hdc, (hiff d).mp hold⟩
        · rename_i hoff
          have hold := (hiff d).mp hd
          have hdc : d ≠ c := fun hdc => hoff ((isOn_iff hfirst c).mpr (hdc ▸ hold))
          exact (mem_leave hfirst).mpr ⟨hdc, hold⟩

/-- Any number of proper steps. -/
abbrev RosterSteps : Roster κ → Roster κ → Prop := ReflTransGen RosterStep

theorem Covers.steps {r r' : Roster κ} (h : Covers r) (hsteps : RosterSteps r r') : Covers r' := by
  induction hsteps with
  | refl => exact h
  | tail _ hlast ih => exact ih.step hlast

theorem Mirrors.steps {r r' : Roster κ} (h : Mirrors r) (hsteps : RosterSteps r r') :
    Mirrors r' := by
  induction hsteps with
  | refl => exact h
  | tail _ hlast ih => exact ih.step hlast

end MirroredRoster
