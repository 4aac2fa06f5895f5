import Mathlib.Data.List.Nodup
import Mathlib.Tactic.Common

/-!
Replies that are routed by the id of the client that asked. Clients come and go;
each has a serial number of its own, and an id that may have been in use before.
-/

namespace RoutedReplies

variable {ι : Type*}

/-- A client, with the id that replies are addressed to. -/
structure Client (ι : Type*) where
  serial : Nat
  id : ι

/-- A request that is not answered yet. -/
structure Request (ι : Type*) where
  id : ι
  asker : Nat

/-- The clients and what they have asked. -/
structure Desk (ι : Type*) where
  clients : List (Client ι)
  outstanding : List (Request ι)
  issued : Nat

def serials (clients : List (Client ι)) : List Nat := clients.map Client.serial

/-- The client a reply to this id goes to: the first one that has it. -/
def recipient [DecidableEq ι] (id : ι) (clients : List (Client ι)) : Option Nat :=
  (clients.find? fun c => c.id = id).map Client.serial

/-- A client enters under an id. -/
def Desk.enter (id : ι) (d : Desk ι) : Desk ι :=
  { d with clients := d.clients ++ [⟨d.issued, id⟩], issued := d.issued + 1 }

def Desk.ask (q : Request ι) (d : Desk ι) : Desk ι := { d with outstanding := d.outstanding ++ [q] }

def Distinct (d : Desk ι) : Prop := (d.clients.map Client.id).Nodup

/-- Only the client that asked has the id of its request. -/
def Exclusive (d : Desk ι) : Prop :=
  ∀ q ∈ d.outstanding, ∀ c ∈ d.clients, c.id = q.id → c.serial = q.asker

/-- The id is nobody's, and no request is under it. -/
def Fresh (id : ι) (d : Desk ι) : Prop :=
  id ∉ d.clients.map Client.id ∧ id ∉ d.outstanding.map Request.id

/-- Each reply finds the client that asked, as long as it is there. -/
structure Routed (d : Desk ι) : Prop where
  distinct : Distinct d
  exclusive : Exclusive d
  owner : ∀ q ∈ d.outstanding, ∀ c ∈ d.clients, c.serial = q.asker → c.id = q.id
  bound : ∀ c ∈ d.clients, c.serial < d.issued
  asked : ∀ q ∈ d.outstanding, q.asker < d.issued

variable {d : Desk ι}

theorem routed_empty (issued : Nat) : Routed (⟨[], [], issued⟩ : Desk ι) := by
  constructor <;> simp [Distinct, Exclusive]

theorem mem_serials {clients : List (Client ι)} {n : Nat} :
    n ∈ serials clients ↔ ∃ c ∈ clients, c.serial = n := List.mem_map

/-- A reply reaches the client that asked, or nobody once it is gone. -/
theorem Routed.recipient [DecidableEq ι] (h : Routed d) {q : Request ι} (hq : q ∈ d.outstanding) :
    recipient q.id d.clients = if q.asker ∈ serials d.clients then some q.asker else none := by
  unfold RoutedReplies.recipient
  cases hfind : d.clients.find? fun c => c.id = q.id with
  | some c =>
      have hc := List.mem_of_find?_eq_some hfind
      have hid : c.id = q.id := by simpa using List.find?_some hfind
      have hasker := h.exclusive q hq c hc hid
      have hmem : q.asker ∈ serials d.clients := mem_serials.mpr ⟨c, hc, hasker⟩
      rw [if_pos hmem, Option.map_some, hasker]
  | none =>
      have hmem : q.asker ∉ serials d.clients := by
        intro hmem
        obtain ⟨c, hc, hasker⟩ := mem_serials.mp hmem
        have hne := List.find?_eq_none.mp hfind c hc
        exact hne (by simpa using h.owner q hq c hc hasker)
      rw [if_neg hmem, Option.map_none]

theorem Routed.enter (h : Routed d) {id : ι} (hfresh : Fresh id d) : Routed (d.enter id) where
  distinct := by
    simp only [Distinct, Desk.enter, List.map_append, List.map_cons, List.map_nil]
    refine List.nodup_append.mpr ⟨h.distinct, List.nodup_singleton _, ?_⟩
    intro a ha b hb hab
    rw [hab, List.mem_singleton.mp hb] at ha
    exact hfresh.1 ha
  exclusive := by
    intro q hq c hc hid
    rcases List.mem_append.mp hc with hold | hnew
    · exact h.exclusive q hq c hold hid
    · rw [List.mem_singleton.mp hnew] at hid
      exact absurd (List.mem_map.mpr ⟨q, hq, hid.symm⟩) hfresh.2
  owner := by
    intro q hq c hc hasker
    rcases List.mem_append.mp hc with hold | hnew
    · exact h.owner q hq c hold hasker
    · rw [List.mem_singleton.mp hnew] at hasker
      exact absurd hasker (Nat.ne_of_gt (h.asked q hq))
  bound := by
    intro c hc
    rcases List.mem_append.mp hc with hold | hnew
    · exact Nat.lt_succ_of_lt (h.bound c hold)
    · rw [List.mem_singleton.mp hnew]
      exact Nat.lt_succ_self _
  asked := fun q hq => Nat.lt_succ_of_lt (h.asked q hq)

theorem Routed.fresh_of_enter (h : Routed d) {id : ι} (hdistinct : Distinct (d.enter id))
    (hexclusive : Exclusive (d.enter id)) : Fresh id d := by
  constructor
  · intro hid
    simp only [Distinct, Desk.enter, List.map_append, List.map_cons, List.map_nil] at hdistinct
    exact (List.nodup_append.mp hdistinct).2.2 id hid id (by simp) rfl
  · intro hid
    obtain ⟨q, hq, hid⟩ := List.mem_map.mp hid
    have hasker : d.issued = q.asker :=
      hexclusive q hq ⟨d.issued, id⟩ (by simp [Desk.enter]) hid.symm
    exact absurd (h.asked q hq) (by omega)

theorem Routed.mono {d' : Desk ι} (h : Routed d) (hclients : d'.clients.Sublist d.clients)
    (houtstanding : d'.outstanding ⊆ d.outstanding) (hissued : d.issued ≤ d'.issued) :
    Routed d' where
  distinct := h.distinct.sublist (hclients.map _)
  exclusive := fun q hq c hc => h.exclusive q (houtstanding hq) c (hclients.subset hc)
  owner := fun q hq c hc => h.owner q (houtstanding hq) c (hclients.subset hc)
  bound := fun c hc => Nat.lt_of_lt_of_le (h.bound c (hclients.subset hc)) hissued
  asked := fun q hq => Nat.lt_of_lt_of_le (h.asked q (houtstanding hq)) hissued

theorem Routed.eq_of_id (h : Routed d) {c c' : Client ι} (hc : c ∈ d.clients)
    (hc' : c' ∈ d.clients) (hid : c.id = c'.id) : c = c' :=
  List.inj_on_of_nodup_map h.distinct hc hc' hid

theorem Routed.ask (h : Routed d) (hserials : (serials d.clients).Nodup) {c : Client ι}
    (hc : c ∈ d.clients) : Routed (d.ask ⟨c.id, c.serial⟩) where
  distinct := h.distinct
  exclusive := by
    intro q hq c' hc' hid
    rcases List.mem_append.mp hq with hold | hnew
    · exact h.exclusive q hold c' hc' hid
    · rw [List.mem_singleton.mp hnew] at hid ⊢
      rw [h.eq_of_id hc' hc hid]
  owner := by
    intro q hq c' hc' hasker
    rcases List.mem_append.mp hq with hold | hnew
    · exact h.owner q hold c' hc' hasker
    · rw [List.mem_singleton.mp hnew] at hasker ⊢
      rw [List.inj_on_of_nodup_map hserials hc' hc hasker]
  bound := h.bound
  asked := by
    intro q hq
    rcases List.mem_append.mp hq with hold | hnew
    · exact h.asked q hold
    · rw [List.mem_singleton.mp hnew]
      exact h.bound c hc

theorem not_exclusive_ask {c : Client ι} (hc : c ∈ d.clients) {asker : Nat}
    (hother : c.serial ≠ asker) : ¬ Exclusive (d.ask ⟨c.id, asker⟩) :=
  fun h => hother (h ⟨c.id, asker⟩ (by simp [Desk.ask]) c hc rfl)

end RoutedReplies
