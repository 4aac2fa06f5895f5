import Mathlib.Data.List.Basic
import Mathlib.Data.List.Infix

/-!
Incremental decoding of a stream that arrives in pieces. A decoder takes one
item off the front of what has arrived so far; `drain` takes all of them, and
the result does not depend on where the stream was cut.
-/

namespace StreamDecoding

variable {α β : Type*}

/-- A decoder that consumes what it decodes and never revises its answer when
more input arrives. -/
structure PrefixDecoder (α β : Type*) where
  next : List α → Option (β × List α)
  next_length : ∀ {xs b ys}, next xs = some (b, ys) → ys.length < xs.length
  next_append : ∀ {xs b ys} (zs : List α),
    next xs = some (b, ys) → next (xs ++ zs) = some (b, ys ++ zs)

namespace PrefixDecoder

variable (d : PrefixDecoder α β)

/-- Every complete item at the front of the stream, and what is left over. -/
def drain (xs : List α) : List β × List α :=
  match _h : d.next xs with
  | none => ([], xs)
  | some (b, ys) => (b :: (drain ys).1, (drain ys).2)
termination_by xs.length
decreasing_by all_goals exact d.next_length _h

theorem drain_of_none {xs : List α} (h : d.next xs = none) :
    d.drain xs = ([], xs) := by
  rw [drain]
  split
  · rfl
  · rename_i hsome
    simp [h] at hsome

theorem drain_of_some {xs ys : List α} {b : β} (h : d.next xs = some (b, ys)) :
    d.drain xs = (b :: (d.drain ys).1, (d.drain ys).2) := by
  rw [drain]
  split
  · rename_i hnone
    simp [h] at hnone
  · rename_i c zs hsome
    obtain ⟨rfl, rfl⟩ : b = c ∧ ys = zs := by simpa [h] using hsome
    rfl

theorem drain_induction {motive : List α → Prop}
    (rest : ∀ xs, d.next xs = none → motive xs)
    (item : ∀ xs b ys, d.next xs = some (b, ys) → motive ys → motive xs)
    (xs : List α) : motive xs := by
  cases h : d.next xs with
  | none => exact rest xs h
  | some p => exact item xs p.1 p.2 h (drain_induction rest item p.2)
termination_by xs.length
decreasing_by exact d.next_length h

theorem next_drain_rest (xs : List α) : d.next (d.drain xs).2 = none := by
  induction xs using d.drain_induction with
  | rest xs h => simpa [d.drain_of_none h] using h
  | item xs b ys h ih => simpa [d.drain_of_some h] using ih

theorem drain_rest_length (xs : List α) : (d.drain xs).2.length ≤ xs.length := by
  induction xs using d.drain_induction with
  | rest xs h => simp [d.drain_of_none h]
  | item xs b ys h ih =>
      have := d.next_length h
      simp only [d.drain_of_some h]
      omega

theorem drain_append (xs zs : List α) :
    d.drain (xs ++ zs) =
      ((d.drain xs).1 ++ (d.drain ((d.drain xs).2 ++ zs)).1,
        (d.drain ((d.drain xs).2 ++ zs)).2) := by
  induction xs using d.drain_induction with
  | rest xs h => simp [d.drain_of_none h]
  | item xs b ys h ih =>
      rw [d.drain_of_some (d.next_append zs h), ih]
      simp [d.drain_of_some h]

/-- The pieces, one after the other, with what is left over in between. -/
def feed : List α → List (List α) → List β × List α
  | rest, [] => ([], rest)
  | rest, piece :: pieces =>
      let now := d.drain (rest ++ piece)
      let later := feed now.2 pieces
      (now.1 ++ later.1, later.2)

/-- Where the stream was cut makes no difference. -/
theorem feed_eq_drain (rest : List α) (pieces : List (List α))
    (hrest : d.next rest = none) :
    d.feed rest pieces = d.drain (rest ++ pieces.flatten) := by
  induction pieces generalizing rest with
  | nil => simp [feed, d.drain_of_none hrest]
  | cons piece pieces ih =>
      simp only [feed, List.flatten_cons]
      rw [ih _ (d.next_drain_rest _), ← List.append_assoc, ← d.drain_append]

theorem exists_cut_of_isPrefix {encode : β → List α} (bs : List β) {b : β} {xs ys : List α}
    (hpre : xs <+: encode b) (hproper : xs ≠ encode b)
    (hys : ys <+: (bs.map encode).flatten ++ xs) :
    ∃ k c zs, zs <+: encode c ∧ zs ≠ encode c ∧
      ys = ((bs.take k).map encode).flatten ++ zs := by
  induction bs generalizing ys with
  | nil =>
      have hys' : ys <+: xs := by simpa using hys
      refine ⟨0, b, ys, hys'.trans hpre, ?_, by simp⟩
      rintro rfl
      exact hproper (hpre.eq_of_length_le hys'.length_le)
  | cons a bs ih =>
      simp only [List.map_cons, List.flatten_cons, List.append_assoc] at hys
      have ha : encode a <+: encode a ++ ((bs.map encode).flatten ++ xs) :=
        List.prefix_append _ _
      rcases eq_or_ne ys (encode a) with rfl | hne
      · refine ⟨1, b, [], List.nil_prefix, ?_, by simp⟩
        intro hnil
        exact hproper (List.prefix_nil.mp (hnil ▸ hpre) |>.trans hnil)
      rcases List.prefix_or_prefix_of_prefix hys ha with hlt | hge
      · exact ⟨0, a, ys, hlt, hne, by simp⟩
      · obtain ⟨zs, rfl⟩ := hge
        obtain ⟨k, c, ws, hws, hwne, rfl⟩ := ih ((List.prefix_append_right_inj _).mp hys)
        exact ⟨k + 1, c, ws, hws, hwne, by simp⟩

section Encoder

variable (encode : β → List α)

/-- What is encoded is decoded, whatever follows. -/
def Encodes : Prop := ∀ b zs, d.next (encode b ++ zs) = some (b, zs)

variable {d encode} (hencode : d.Encodes encode)

include hencode

theorem drain_encoded (bs : List β) (zs : List α) :
    d.drain ((bs.map encode).flatten ++ zs) = (bs ++ (d.drain zs).1, (d.drain zs).2) := by
  induction bs with
  | nil => simp
  | cons b bs ih =>
      rw [List.map_cons, List.flatten_cons, List.append_assoc,
        d.drain_of_some (hencode b _), ih]
      rfl

theorem next_properPrefix {b : β} {xs : List α} (hpre : xs <+: encode b)
    (hproper : xs ≠ encode b) : d.next xs = none := by
  obtain ⟨zs, hzs⟩ := hpre
  cases h : d.next xs with
  | none => rfl
  | some p =>
      have hall : d.next (encode b) = some (b, []) := by simpa using hencode b []
      have hlonger := d.next_append zs h
      rw [hzs, hall] at hlonger
      have hnil : zs = [] := by simp_all
      exact absurd (by simpa [hnil] using hzs) hproper

theorem drain_encoded_properPrefix (bs : List β) {b : β} {xs : List α}
    (hpre : xs <+: encode b) (hproper : xs ≠ encode b) :
    d.drain ((bs.map encode).flatten ++ xs) = (bs, xs) := by
  rw [drain_encoded hencode, d.drain_of_none (next_properPrefix hencode hpre hproper)]
  simp

/-- Of each item a piece is delivered, in order; the items that are delivered are
delivered whole, and none is cut short and followed by more. -/
structure DeliversWhole (encode : β → List α) (pieces : List (β × List α)) : Prop where
  whole : ∃ bs : List β, bs.Sublist (pieces.map Prod.fst) ∧
    (pieces.map Prod.snd).flatten = (bs.map encode).flatten
  uncut : ∀ earlier piece later, pieces = earlier ++ piece :: later → piece.2 ≠ [] →
    piece.2 ≠ encode piece.1 → (later.map Prod.snd).flatten = []

omit hencode in
theorem exists_items {pieces : List (β × List α)}
    (h : ∀ piece ∈ pieces, piece.2 = [] ∨ piece.2 = encode piece.1) :
    ∃ bs : List β, bs.Sublist (pieces.map Prod.fst) ∧
      (pieces.map Prod.snd).flatten = (bs.map encode).flatten := by
  induction pieces with
  | nil => exact ⟨[], List.Sublist.refl _, rfl⟩
  | cons piece pieces ih =>
      obtain ⟨bs, hsub, hflat⟩ := ih fun later hlater => h later (List.mem_cons_of_mem _ hlater)
      rcases h piece List.mem_cons_self with hnil | hwhole
      · refine ⟨bs, hsub.cons _, ?_⟩
        rw [List.map_cons, List.flatten_cons, hnil, hflat]
        rfl
      · refine ⟨piece.1 :: bs, hsub.cons_cons _, ?_⟩
        rw [List.map_cons, List.flatten_cons, hwhole, hflat]
        rfl

/-- Items are delivered whole just if each piece is all of its item or nothing: a piece
at the end of the stream does not decode. -/
theorem deliversWhole_iff {pieces : List (β × List α)}
    (hpieces : ∀ piece ∈ pieces, piece.2 <+: encode piece.1) :
    DeliversWhole encode pieces ↔ ∀ piece ∈ pieces, piece.2 = [] ∨ piece.2 = encode piece.1 := by
  constructor
  · rintro ⟨⟨bs, -, hflat⟩, huncut⟩ piece hpiece
    by_contra hcut
    obtain ⟨hne, hshort⟩ := not_or.mp hcut
    obtain ⟨earlier, later, rfl⟩ := List.append_of_mem hpiece
    -- what is before the piece is whole, since the piece comes behind it
    have hearlier : ∀ before ∈ earlier, before.2 = [] ∨ before.2 = encode before.1 := by
      intro before hbefore
      by_contra hcut
      obtain ⟨hne', hshort'⟩ := not_or.mp hcut
      obtain ⟨first, rest, rfl⟩ := List.append_of_mem hbefore
      have hnil := huncut first before (rest ++ piece :: later) (by simp) hne' hshort'
      simp only [List.flatten_eq_nil_iff, List.mem_map] at hnil
      exact hne (hnil _ ⟨piece, by simp, rfl⟩)
    obtain ⟨sent, -, hsent⟩ := exists_items hearlier
    have hlater := huncut earlier piece later rfl hne hshort
    have hstream : (bs.map encode).flatten ++ [] = (sent.map encode).flatten ++ piece.2 := by
      rw [← hflat, ← hsent]
      simp [hlater]
    have hdrain := congrArg d.drain hstream
    rw [drain_encoded hencode, drain_encoded_properPrefix hencode sent (hpieces piece (by simp))
      hshort] at hdrain
    have hrest : (d.drain []).2 = piece.2 := congrArg Prod.snd hdrain
    have hnone : (d.drain []).2.length ≤ 0 := d.drain_rest_length []
    exact hne (hrest ▸ List.eq_nil_of_length_eq_zero (Nat.le_zero.mp hnone))
  · intro h
    refine ⟨exists_items h, fun earlier piece later heq hne hshort => ?_⟩
    subst heq
    exact absurd ((h piece (by simp)).resolve_left hne) hshort

end Encoder

end PrefixDecoder

end StreamDecoding
