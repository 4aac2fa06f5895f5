import GwWeb.BlockOwnership
import GwWeb.LoopRules
import GwWeb.TinyQueue

/-!
The nodes of a `tiny_queue` that threads push to and pop from in turn, until
`tiny_queue_destory`.
-/

namespace GwWeb.QueueDestruction

open BlockOwnership
open LinkedCells
open LoopRules
open TransitionRuns
open GwWeb.WebCommon (Fault)

/-- A value in the queue comes with the number of its push, which no call reads: it tells
nodes apart whose addresses are the same. `destroyed` lists the nodes that
`tiny_queue_destory` frees. -/
structure State (τ α : Type) where
  queue : TinyQueue.State τ (Nat × α)
  destroyed : List Nat
  queueFreed : Bool

/-- A whole call. -/
inductive Label (τ α : Type) where
  | push (t : τ) (data : α) (newNode : Option Nat)
  | pop (t : τ)

section Calls

variable {τ α : Type} [DecidableEq τ]

def tinyQueueCreate : State τ α :=
  { queue := TinyQueue.tinyQueueCreate, destroyed := [], queueFreed := false }

/-- The steps of a call that nobody interrupts. -/
def steps (s : State τ α) : Label τ α → List (TinyQueue.Label τ (Nat × α))
  | .push t data none => [.push t (s.queue.pushed.length, data) none]
  | .push t data (some a) =>
      [.push t (s.queue.pushed.length, data) (some a), .lock t, .act t, .unlock t, .signal t []]
  | .pop t => [.pop t, .lock t, .act t, .unlock t]

/-- A call from its lock to its return, with nobody in between. -/
def execute (s : State τ α) (l : Label τ α) : Except Fault (State τ α) := do
  let queue ← (steps s l).foldlM TinyQueue.execute s.queue
  return { s with queue }

/-- `malloc` returns memory that is not in use; a pop finds the queue non-empty. -/
def Possible (s : State τ α) : Label τ α → Prop
  | .push _ _ newNode => ∀ a ∈ newNode, s.queue.heap a = none
  | .pop _ => s.queue.head ≠ none

abbrev Step : State τ α → Label τ α → State τ α → Prop := Executes Possible execute

/-- The loop of `tiny_queue_destory`: `node` is freed while there is a next one. -/
def destroyBody : Nat × State τ α → (Nat × State τ α) ⊕ Except Fault (State τ α)
  | (node, s) =>
      match s.queue.heap node with
      | none => .inr (.error .afterFree)
      | some cell =>
          match cell.next with
          | none => .inr (.ok s)
          | some next => .inl (next, { s with
              queue := { s.queue with heap := Function.update s.queue.heap node none }
              destroyed := s.destroyed ++ [cell.data.1] })

/-- `tiny_queue_destory`, with what the two `pthread` calls return; `none` while its loop
still goes on. -/
def tinyQueueDestory (fuel : Nat) (mutexDestroy condDestroy : Int) (s : State τ α) :
    Option (Except Fault (Int × State τ α)) :=
  if mutexDestroy ≠ 0 ∨ condDestroy ≠ 0 then some (.ok (-1, s))
  else
    match s.queue.head with
    | none => some (.ok (0, { s with queueFreed := true }))
    | some node => (runLoop destroyBody fuel (node, s)).map fun r => do
        let s ← r
        return (0, { s with queueFreed := true })

/-- The nodes that pushes have allocated. -/
def allocated (s : State τ α) : List Nat := s.queue.pushed.map Prod.fst

/-- The nodes that were freed, by pops and by `tiny_queue_destory`. -/
def released (s : State τ α) : List Nat := s.queue.popped.map Prod.fst ++ s.destroyed

/-- Every node is freed once; one that a pop frees is that of the value it returns. -/
structure ReleasedOnce (s : State τ α) : Prop where
  once : ∀ k ∈ allocated s, (released s).count k = 1
  returned : ∀ p ∈ s.queue.popped, p ∈ s.queue.pushed

/-- Between two calls. -/
structure Idle (q : TinyQueue.State τ (Nat × α)) : Prop where
  mutex : q.mutex = none
  outside : ∀ t, q.place t = .outside

/-- Only `t` is in a call, and where. -/
structure Alone (t : τ) (p : TinyQueue.Place (Nat × α)) (q : TinyQueue.State τ (Nat × α)) :
    Prop where
  here : q.place t = p
  others : ∀ u, u ≠ t → q.place u = .outside

/-- What holds between two calls: the queue has a run of its own behind it, and pushes
are numbered from 0. -/
structure Kept (s : State τ α) : Prop where
  run : ∃ trs, Run TinyQueue.Step TinyQueue.tinyQueueCreate trs s.queue
  idle : Idle s.queue
  numbers : allocated s = List.range s.queue.pushed.length
  destroyed : s.destroyed = []

variable {q : TinyQueue.State τ (Nat × α)} {s s' : State τ α} {l : Label τ α}
variable {cells : List (Nat × Nat × α)} {t : τ} {a : Nat} {x : Nat × α}
variable {p p' : TinyQueue.Place (Nat × α)}

section Uninterrupted

omit [DecidableEq τ] in
theorem Idle.alone (h : Idle q) : Alone t .outside q := ⟨h.outside t, fun u _ => h.outside u⟩

omit [DecidableEq τ] in
theorem Alone.idle (h : Alone t .outside q) (hmutex : q.mutex = none) : Idle q := by
  refine ⟨hmutex, fun u => ?_⟩
  rcases eq_or_ne u t with rfl | hne
  · exact h.here
  · exact h.others u hne

theorem Alone.moveTo (h : Alone t p q) {q₁ : TinyQueue.State τ (Nat × α)}
    (hplace : q₁.place = q.place) : Alone t p' (TinyQueue.moveTo t p' q₁) := by
  refine ⟨Function.update_self _ _ _, fun u hne => ?_⟩
  rw [TinyQueue.moveTo_place, Function.update_of_ne hne, hplace]
  exact h.others u hne

theorem Idle.allocate (h : Idle q) (ha : q.heap a = none) :
    ∃ q', TinyQueue.Step q (.push t x (some a)) q' ∧ Alone t (.pushing a x) q' ∧
      q'.mutex = none ∧ q'.pushed = q.pushed :=
  ⟨_, TinyQueue.step_of_moved (.push t x a (h.outside t) ha), h.alone.moveTo rfl, h.mutex, rfl⟩

theorem Alone.lockPush (h : Alone t (.pushing a x) q) (hmutex : q.mutex = none) :
    ∃ q', TinyQueue.Step q (.lock t) q' ∧ Alone t (.linking a x) q' ∧ q'.pushed = q.pushed :=
  ⟨_, TinyQueue.step_of_moved (.lockPush t a x hmutex h.here), h.moveTo rfl, rfl⟩

theorem Alone.link (h : Alone t (.linking a x) q) (hq : TinyQueue.Queued q cells) :
    ∃ q', TinyQueue.Step q (.act t) q' ∧ Alone t .linked q' ∧ q'.pushed = q.pushed ++ [x] := by
  obtain ⟨heap, head, tail, hlink, -⟩ := hq.link (.inr h.here)
  exact ⟨_, TinyQueue.step_of_moved (.link t a x _ h.here hlink), h.moveTo rfl, rfl⟩

theorem Alone.unlockPush (h : Alone t .linked q) :
    ∃ q', TinyQueue.Step q (.unlock t) q' ∧ Alone t .signalling q' ∧ q'.mutex = none ∧
      q'.pushed = q.pushed :=
  ⟨_, TinyQueue.step_of_moved (.unlockPush t h.here), h.moveTo rfl, rfl, rfl⟩

theorem Alone.signal (h : Alone t .signalling q) (hmutex : q.mutex = none) :
    ∃ q', TinyQueue.Step q (.signal t []) q' ∧ Idle q' ∧ q'.pushed = q.pushed := by
  have hnone : ¬ ∃ u, q.place u = .waiting := by
    rintro ⟨u, hu⟩
    rcases eq_or_ne u t with rfl | hne
    · simp [h.here] at hu
    · simp [h.others u hne] at hu
  have hmoved := TinyQueue.Moved.signal t [] h.here (by simp) fun hsome => absurd hsome hnone
  refine ⟨_, TinyQueue.step_of_moved hmoved, ⟨hmutex, fun u => ?_⟩, rfl⟩
  rcases eq_or_ne u t with rfl | hne
  · simp
  · simp [hne, h.others u hne]

theorem Idle.callPop (h : Idle q) :
    ∃ q', TinyQueue.Step q (.pop t) q' ∧ Alone t .popping q' ∧ q'.mutex = none ∧
      q'.head = q.head ∧ q'.pushed = q.pushed :=
  ⟨_, TinyQueue.step_of_moved (.pop t (h.outside t)), h.alone.moveTo rfl, h.mutex, rfl, rfl⟩

theorem Alone.lockPop (h : Alone t .popping q) (hmutex : q.mutex = none) :
    ∃ q', TinyQueue.Step q (.lock t) q' ∧ Alone t .testing q' ∧ q'.head = q.head ∧
      q'.pushed = q.pushed :=
  ⟨_, TinyQueue.step_of_moved (.lockPop t hmutex (.inl h.here)), h.moveTo rfl, rfl, rfl⟩

theorem Alone.take (h : Alone t .testing q) (hq : TinyQueue.Queued q cells)
    (hhead : q.head ≠ none) :
    ∃ q' data, TinyQueue.Step q (.act t) q' ∧ Alone t (.taken data) q' ∧ q'.pushed = q.pushed := by
  obtain ⟨a, x, rest, heap, head, tail, -, htake, -⟩ := hq.take hhead
  exact ⟨_, x, TinyQueue.step_of_moved (.take t x _ h.here hhead htake), h.moveTo rfl, rfl⟩

theorem Alone.unlockPop (h : Alone t (.taken x) q) :
    ∃ q', TinyQueue.Step q (.unlock t) q' ∧ Idle q' ∧ q'.pushed = q.pushed := by
  refine ⟨_, TinyQueue.step_of_moved (.unlockPop t x h.here), Alone.idle (t := t) ?_ rfl, rfl⟩
  exact h.moveTo rfl

theorem run_push (hsound : TinyQueue.Sound q) (hidle : Idle q) (ha : q.heap a = none) :
    ∃ trs q', Run TinyQueue.Step q trs q' ∧ trs.map (fun tr => tr.label) =
        [.push t x (some a), .lock t, .act t, .unlock t, .signal t []] ∧
      Idle q' ∧ q'.pushed = q.pushed ++ [x] := by
  obtain ⟨q₁, hpush, hpushing, hmutex₁, hpushed₁⟩ := hidle.allocate (t := t) (x := x) ha
  obtain ⟨q₂, hlock, hlinking, hpushed₂⟩ := hpushing.lockPush hmutex₁
  obtain ⟨cells, hqueued, -⟩ := ((hsound.step hpush).step hlock).backed
  obtain ⟨q₃, hact, hlinked, hpushed₃⟩ := hlinking.link hqueued
  obtain ⟨q₄, hunlock, hsignalling, hmutex₄, hpushed₄⟩ := hlinked.unlockPush
  obtain ⟨q₅, hsignal, hidle₅, hpushed₅⟩ := hsignalling.signal hmutex₄
  refine ⟨_, q₅, .cons hpush (.cons hlock (.cons hact (.cons hunlock (.cons hsignal (.nil q₅))))),
    rfl, hidle₅, ?_⟩
  rw [hpushed₅, hpushed₄, hpushed₃, hpushed₂, hpushed₁]

theorem run_pop (hsound : TinyQueue.Sound q) (hidle : Idle q) (hhead : q.head ≠ none) :
    ∃ trs q', Run TinyQueue.Step q trs q' ∧
      trs.map (fun tr => tr.label) = [.pop t, .lock t, .act t, .unlock t] ∧
      Idle q' ∧ q'.pushed = q.pushed := by
  obtain ⟨q₁, hpop, hpopping, hmutex₁, hhead₁, hpushed₁⟩ := hidle.callPop (t := t)
  obtain ⟨q₂, hlock, htesting, hhead₂, hpushed₂⟩ := hpopping.lockPop hmutex₁
  obtain ⟨cells, hqueued, -⟩ := ((hsound.step hpop).step hlock).backed
  have hnonempty : q₂.head ≠ none := by rwa [hhead₂, hhead₁]
  obtain ⟨q₃, data, hact, htaken, hpushed₃⟩ := htesting.take hqueued hnonempty
  obtain ⟨q₄, hunlock, hidle₄, hpushed₄⟩ := htaken.unlockPop
  refine ⟨_, q₄, .cons hpop (.cons hlock (.cons hact (.cons hunlock (.nil q₄)))), rfl, hidle₄, ?_⟩
  rw [hpushed₄, hpushed₃, hpushed₂, hpushed₁]

end Uninterrupted

theorem execute_of_run {trs : List (Transition (TinyQueue.State τ (Nat × α)) _)}
    (hrun : Run TinyQueue.Step s.queue trs q) (hlabels : trs.map (fun tr => tr.label) = steps s l) :
    execute s l = .ok { s with queue := q } := by
  have hfold := foldlM_of_run hrun
  rw [hlabels] at hfold
  simp [execute, hfold, bind, Except.bind, pure, Except.pure]

theorem kept_create : Kept (tinyQueueCreate : State τ α) :=
  ⟨⟨[], .nil _⟩, ⟨rfl, fun _ => rfl⟩, rfl, rfl⟩

theorem Kept.of_run (h : Kept s) {trs : List (Transition (TinyQueue.State τ (Nat × α)) _)}
    (hrun : Run TinyQueue.Step s.queue trs q) (hidle : Idle q)
    (hnumbers : q.pushed.map Prod.fst = List.range q.pushed.length) :
    Kept { s with queue := q } := by
  obtain ⟨before, hbefore⟩ := h.run
  exact ⟨⟨before ++ trs, hbefore.append hrun⟩, hidle, hnumbers, h.destroyed⟩

theorem Kept.call (h : Kept s) (hpossible : Possible s l) :
    ∃ s', execute s l = .ok s' ∧ Kept s' := by
  obtain ⟨before, hbefore⟩ := h.run
  have hsound := (TinyQueue.sound_of_run hbefore).2
  cases l with
  | push t data newNode =>
      cases newNode with
      | none => exact ⟨s, rfl, h⟩
      | some a =>
          obtain ⟨trs, q, hrun, hlabels, hidle, hpushed⟩ :=
            run_push hsound h.idle (hpossible a rfl) (t := t) (x := (s.queue.pushed.length, data))
          refine ⟨_, execute_of_run hrun hlabels, h.of_run hrun hidle ?_⟩
          have hnumbers := h.numbers
          rw [allocated] at hnumbers
          simp [hpushed, hnumbers, List.range_succ]
  | pop t =>
      obtain ⟨trs, q, hrun, hlabels, hidle, hpushed⟩ := run_pop hsound h.idle hpossible (t := t)
      refine ⟨_, execute_of_run hrun hlabels, h.of_run hrun hidle ?_⟩
      rw [hpushed]
      exact h.numbers

theorem kept_of_run {trs : List (Transition (State τ α) (Label τ α))}
    (h : Run Step tinyQueueCreate trs s) : Kept s := by
  have hkeep : ∀ (s : State τ α) l s', Kept s → True → Step s l s' → Kept s' := by
    intro s l s' hs _ hstep
    obtain ⟨s₁, hok, hkept⟩ := hs.call hstep.1
    obtain rfl := Except.ok.inj (hok.symm.trans hstep.2)
    exact hkept
  exact (h.invariant hkeep kept_create fun _ _ => trivial).2

omit [DecidableEq τ] in
/-- The loop frees all nodes of a list but the last. -/
theorem runLoop_destroyBody (h : Chain s.queue.heap (some a) cells) :
    ∃ heap, runLoop destroyBody cells.length (a, s) = some (.ok { s with
        queue := { s.queue with heap }
        destroyed := s.destroyed ++ cells.dropLast.map fun c => c.2.1 }) := by
  induction cells generalizing a s with
  | nil => cases h
  | cons c cells ih =>
      obtain ⟨x, next, rest, hcells, hcell, hrest⟩ := h.uncons
      obtain ⟨rfl, rfl⟩ := List.cons.inj hcells
      cases next with
      | none =>
          obtain rfl := hrest.eq_none_iff.mp rfl
          refine ⟨s.queue.heap, runLoop_of_break ?_⟩
          simp [destroyBody, hcell]
      | some b =>
          obtain ⟨heap, hloop⟩ := ih (s := { s with
            queue := { s.queue with heap := Function.update s.queue.heap a none }
            destroyed := s.destroyed ++ [x.1] }) hrest
          have hne : cells ≠ [] := fun hnil => by simpa using hrest.eq_none_iff.mpr hnil
          refine ⟨heap, ?_⟩
          rw [List.length_cons, runLoop_of_continue]
          · rw [hloop, List.dropLast_cons_of_ne_nil hne]
            simp
          · simp [destroyBody, hcell]

theorem Kept.queued (h : Kept s) : ∃ cells, Chain s.queue.heap s.queue.head cells ∧
    s.queue.popped ++ cells.map Prod.snd = s.queue.pushed ∧
    released s ++ cells.map (fun c => c.2.1) = List.range s.queue.pushed.length := by
  obtain ⟨trs, hrun⟩ := h.run
  obtain ⟨cells, hqueued, -⟩ := (TinyQueue.sound_of_run hrun).2.backed
  refine ⟨cells, hqueued.chain, hqueued.fifo, ?_⟩
  rw [← h.numbers, allocated, ← hqueued.fifo, released, h.destroyed, List.append_nil,
    List.map_append, List.map_map]
  rfl

/-- Where the queue is not empty, `tiny_queue_destory` leaves the node that was pushed last. -/
theorem Kept.destroyed_nonempty (h : Kept s) (hhead : s.queue.head ≠ none) :
    ∃ fuel s' last, tinyQueueDestory fuel 0 0 s = some (.ok (0, s')) ∧
      s'.queue.pushed = s.queue.pushed ∧ s'.queue.popped = s.queue.popped ∧
      s.queue.pushed.length = last + 1 ∧ released s' = List.range last := by
  obtain ⟨cells, hchain, -, hnumbers⟩ := h.queued
  have hne : cells ≠ [] := fun hnil => hhead (hchain.eq_none_iff.mpr hnil)
  obtain ⟨node, hnode⟩ := Option.ne_none_iff_exists'.mp hhead
  rw [hnode] at hchain
  obtain ⟨heap, hloop⟩ := runLoop_destroyBody hchain
  rw [← List.dropLast_append_getLast hne, List.map_append, List.map_singleton,
    ← List.append_assoc] at hnumbers
  obtain ⟨last, hlast⟩ : ∃ last, s.queue.pushed.length = last + 1 := by
    have hlength := congrArg List.length hnumbers
    simp only [List.length_append, List.length_singleton, List.length_range] at hlength
    exact ⟨_, hlength.symm⟩
  rw [hlast, List.range_succ] at hnumbers
  refine ⟨cells.length, { s with
    queue := { s.queue with heap }
    destroyed := s.destroyed ++ cells.dropLast.map fun c => c.2.1
    queueFreed := true }, last, ?_, rfl, rfl, hlast, ?_⟩
  · simp [tinyQueueDestory, hnode, hloop, bind, Except.bind, pure, Except.pure]
  · rw [← List.append_inj_left' hnumbers rfl, released, released, List.append_assoc]

theorem Kept.destroyed_owned (h : Kept s) (mutexDestroy condDestroy : Int) :
    ∃ fuel rc s' left, tinyQueueDestory fuel mutexDestroy condDestroy s = some (.ok (rc, s')) ∧
      s'.queue.pushed = s.queue.pushed ∧ s'.queue.popped = s.queue.popped ∧
      Owned s.queue.pushed.length (released s') left ∧ (left = [] ↔ s.queue.head = none) := by
  obtain ⟨cells, hchain, -, hnumbers⟩ := h.queued
  by_cases hfail : mutexDestroy ≠ 0 ∨ condDestroy ≠ 0
  · refine ⟨0, -1, s, _, by rw [tinyQueueDestory, if_pos hfail], rfl, rfl, .of_eq hnumbers, ?_⟩
    rw [List.map_eq_nil_iff, hchain.eq_none_iff]
  · obtain ⟨rfl, rfl⟩ : mutexDestroy = 0 ∧ condDestroy = 0 := by
      simpa only [not_or, not_not] using hfail
    by_cases hhead : s.queue.head = none
    · obtain rfl := hchain.eq_none_iff.mp hhead
      refine ⟨0, 0, { s with queueFreed := true }, [], ?_, rfl, rfl, .of_eq hnumbers, ?_⟩
      · simp [tinyQueueDestory, hhead]
      · simp [hhead]
    · obtain ⟨fuel, s', last, hok, hpushed, hpopped, hlast, hreleased⟩ := h.destroyed_nonempty hhead
      refine ⟨fuel, 0, s', [last], hok, hpushed, hpopped, .of_eq ?_, by simp [hhead]⟩
      rw [hreleased, hlast, List.range_succ]

instance [DecidableEq α] (s : State τ α) (l : Label τ α) : Decidable (Possible s l) :=
  match l with
  | .push _ _ _ => inferInstanceAs (Decidable (∀ a ∈ _, _))
  | .pop _ => inferInstanceAs (Decidable (_ ≠ _))

end Calls

end GwWeb.QueueDestruction
