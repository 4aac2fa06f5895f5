import GwWeb.TinyQueue

/-!
The order of the queue, told from the calls: the values with which `tiny_queue_push` is
called, in the order in which its calls lock, against what `tiny_queue_pop` returns.
-/

namespace GwWeb.TinyQueue

open LinkedCells
open TransitionRuns
open GwWeb.WebCommon (Fault)

section Threads

variable {τ α : Type} [DecidableEq τ]

/-- The value of each call of `tiny_queue_push` that has its node and has still to lock,
told from the labels alone. -/
def callsAfter (calls : τ → Option α) : Label τ α → τ → Option α
  | .push t data (some _) => Function.update calls t (some data)
  | .lock t => Function.update calls t none
  | _ => calls

/-- The value of the push that gets the mutex. -/
def lockedBy (calls : τ → Option α) : Label τ α → List α
  | .lock t => (calls t).toList
  | _ => []

/-- The values of the calls of `tiny_queue_push`, in the order of their locks. -/
def lockOrder (calls : τ → Option α) : List (Label τ α) → List α
  | [] => []
  | l :: labels => lockedBy calls l ++ lockOrder (callsAfter calls l) labels

/-- The value of a pop that has taken one. -/
def Place.takenValue : Place α → List α
  | .taken data => [data]
  | _ => []

/-- The value that a thread in `tiny_queue_pop` takes for its return. -/
def takenBy (tr : Transition (State τ α) (Label τ α)) : List α :=
  match tr.label with
  | .act t => (tr.after.place t).takenValue
  | _ => []

/-- The value of a push that is about to link it. -/
def Place.linkingValue : Place α → List α
  | .linking _ data => [data]
  | _ => []

/-- The value of the call that has locked and is about to link its node. -/
def State.beingLinked (s : State τ α) : List α :=
  match s.mutex with
  | none => []
  | some t => (s.place t).linkingValue

variable {s s' s₁ : State τ α} {l : Label τ α} {t : τ} {a : Nat} {data : α}
variable {calls : τ → Option α}

omit [DecidableEq τ] in
theorem link_keeps (h : link a s = .ok s₁) :
    s₁.place = s.place ∧ s₁.mutex = s.mutex ∧ s₁.pushed = s.pushed ∧ s₁.popped = s.popped := by
  unfold link at h
  split at h
  · obtain rfl := Except.ok.inj h
    exact ⟨rfl, rfl, rfl, rfl⟩
  · split at h
    · cases h
    · split at h
      · cases h
      · obtain rfl := Except.ok.inj h
        exact ⟨rfl, rfl, rfl, rfl⟩

omit [DecidableEq τ] in
theorem take_keeps (h : take s = .ok (data, s₁)) :
    s₁.place = s.place ∧ s₁.mutex = s.mutex ∧ s₁.pushed = s.pushed ∧ s₁.popped = s.popped := by
  unfold take at h
  split at h
  · cases h
  · split at h
    · cases h
    · dsimp only at h
      split at h
      · obtain ⟨rfl, rfl⟩ := Prod.mk.inj (Except.ok.inj h)
        exact ⟨rfl, rfl, rfl, rfl⟩
      · obtain ⟨rfl, rfl⟩ := Prod.mk.inj (Except.ok.inj h)
        exact ⟨rfl, rfl, rfl, rfl⟩

/-- A signal changes nothing of a place but what tells `waiting` from `woken`, and
`signalling` from `outside`. -/
theorem signal_congr {β : Type*} (f : Place α → β) (hwoken : f .woken = f .waiting)
    (hsignalled : f .outside = f .signalling) {woken : List τ} (ht : s.place t = .signalling)
    (hwaiting : ∀ u ∈ woken, s.place u = .waiting) (u : τ) :
    f (if u ∈ woken then .woken else if u = t then .outside else s.place u) = f (s.place u) := by
  split
  · rename_i hmem
    rw [hwaiting u hmem, hwoken]
  · split
    · rename_i heq
      rw [heq, ht, hsignalled]
    · rfl

/-- The calls that the labels tell are those that stand at the lock of `tiny_queue_push`. -/
def Tracks (calls : τ → Option α) (s : State τ α) : Prop :=
  ∀ t x, calls t = some x ↔ ∃ a, s.place t = .pushing a x

omit [DecidableEq τ] in
theorem tracks_create : Tracks (fun _ => none) (tinyQueueCreate : State τ α) := by
  intro t x
  simp [tinyQueueCreate]

theorem Tracks.moveTo (h : Tracks calls s) (hplace : s₁.place = s.place) {p : Place α}
    (ht : ∀ a x, s.place t ≠ .pushing a x) (hp : ∀ a x, p ≠ .pushing a x) :
    Tracks calls (TinyQueue.moveTo t p s₁) := by
  intro u x
  rw [h u x, moveTo_place, hplace]
  rcases eq_or_ne u t with rfl | hne
  · rw [Function.update_self]
    exact ⟨fun ⟨a, ha⟩ => absurd ha (ht a x), fun ⟨a, ha⟩ => absurd ha (hp a x)⟩
  · rw [Function.update_of_ne hne]

theorem Tracks.update (h : Tracks calls s) (hplace : s₁.place = s.place) {p : Place α}
    {call : Option α} (hcall : ∀ x, call = some x ↔ ∃ a, p = .pushing a x) :
    Tracks (Function.update calls t call) (TinyQueue.moveTo t p s₁) := by
  intro u x
  rw [moveTo_place, hplace]
  rcases eq_or_ne u t with rfl | hne
  · rw [Function.update_self, Function.update_self]
    exact hcall x
  · rw [Function.update_of_ne hne, Function.update_of_ne hne]
    exact h u x

theorem Tracks.step (h : Tracks calls s) (hmoved : Moved s l s') :
    Tracks (callsAfter calls l) s' := by
  cases hmoved with
  | noMemory => exact h
  | push t data a ht ha => exact h.update rfl (by simp)
  | pop t ht => exact h.moveTo rfl (by simp [ht]) (by simp)
  | lockPush t a data hmutex ht => exact h.update rfl (by simp)
  | lockPop t hmutex ht => exact h.update rfl (by simp)
  | link t a data s₁ ht hlink =>
      exact h.moveTo (link_keeps hlink).1 (by simp [ht]) (by simp)
  | wait t ht hhead => exact h.moveTo rfl (by simp [ht]) (by simp)
  | take t data s₁ ht hhead htake =>
      exact h.moveTo (take_keeps htake).1 (by simp [ht]) (by simp)
  | unlockPush t ht | unlockPop t _ ht => exact h.moveTo rfl (by simp [ht]) (by simp)
  | signal t woken ht hwoken hsome =>
      intro u x
      have hcalls : callsAfter calls (.signal t woken) = calls := rfl
      have hplace := signal_congr (fun p => ∃ a, p = .pushing a x) (by simp) (by simp) ht hwoken u
      rw [hcalls, h u x]
      exact Iff.of_eq hplace.symm
  | wake t ht => exact h.moveTo rfl (by simp [ht]) (by simp)

/-- Where the mutex stays and the thread that moves is not about to link, neither before
nor after, the value that is being linked stays. -/
theorem beingLinked_moveTo (hplace : s₁.place = s.place) (hmutex : s₁.mutex = s.mutex)
    {p : Place α} (ht : (s.place t).linkingValue = []) (hp : p.linkingValue = []) :
    (moveTo t p s₁).beingLinked = s.beingLinked := by
  have hsame : (moveTo t p s₁).mutex = s.mutex := hmutex
  unfold State.beingLinked
  rw [hsame, moveTo_place, hplace]
  cases s.mutex with
  | none => rfl
  | some u =>
      rcases eq_or_ne u t with rfl | hne
      · simp only [Function.update_self, hp, ht]
      · simp only [Function.update_of_ne hne]

omit [DecidableEq τ] in
theorem beingLinked_of_free (h : s.mutex = none) : s.beingLinked = [] := by
  simp [State.beingLinked, h]

omit [DecidableEq τ] in
theorem beingLinked_of_holds (h : Excludes s) (ht : (s.place t).Holds) :
    s.beingLinked = (s.place t).linkingValue := by
  simp [State.beingLinked, h.mutex t ht]

theorem beingLinked_locked (p : Place α) :
    (moveTo t p { s with mutex := some t }).beingLinked = p.linkingValue := by
  simp [State.beingLinked, moveTo]

theorem pushed_step (hcalls : Tracks calls s) (hexcludes : Excludes s) (hmoved : Moved s l s') :
    s'.pushed ++ s'.beingLinked = s.pushed ++ s.beingLinked ++ lockedBy calls l := by
  cases hmoved with
  | noMemory => simp [lockedBy]
  | push t data a ht ha =>
      have hsame : (moveTo t (.pushing a data)
          { s with heap := Function.update s.heap a (some ⟨data, none⟩) }).beingLinked =
            s.beingLinked := by
        apply beingLinked_moveTo
        · rfl
        · rfl
        · simp [ht, Place.linkingValue]
        · rfl
      rw [hsame]
      simp [lockedBy, moveTo]
  | pop t ht =>
      rw [beingLinked_moveTo rfl rfl (by simp [ht, Place.linkingValue]) rfl]
      simp [lockedBy, moveTo]
  | lockPush t a data hmutex ht =>
      have hcall : calls t = some data := (hcalls t data).mpr ⟨a, ht⟩
      rw [beingLinked_locked, beingLinked_of_free hmutex]
      simp [lockedBy, hcall, moveTo, Place.linkingValue]
  | lockPop t hmutex ht =>
      have hcall : calls t = none := by
        refine Option.eq_none_iff_forall_ne_some.mpr fun x hx => ?_
        obtain ⟨a, ha⟩ := (hcalls t x).mp hx
        simp [ha] at ht
      rw [beingLinked_locked, beingLinked_of_free hmutex]
      simp [lockedBy, hcall, moveTo, Place.linkingValue]
  | link t a data s₁ ht hlink =>
      obtain ⟨hplace, hmutex, hpushed, -⟩ := link_keeps hlink
      have hholds : (s.place t).Holds := by simp [ht, Place.Holds, Place.InSection]
      have hbefore : s.beingLinked = [data] := by
        rw [beingLinked_of_holds hexcludes hholds, ht]
        rfl
      have hafter : (moveTo t .linked { s₁ with pushed := s₁.pushed ++ [data] }).beingLinked =
          [] := by
        simp [State.beingLinked, moveTo, hmutex, hexcludes.mutex t hholds, Place.linkingValue]
      rw [hbefore, hafter]
      simp [lockedBy, moveTo, hpushed]
  | wait t ht hhead =>
      have hholds : (s.place t).Holds := by simp [ht, Place.Holds, Place.InSection]
      rw [beingLinked_of_free rfl, beingLinked_of_holds hexcludes hholds, ht]
      simp [lockedBy, moveTo, Place.linkingValue]
  | take t data s₁ ht hhead htake =>
      obtain ⟨hplace, hmutex, hpushed, -⟩ := take_keeps htake
      have hsame : (moveTo t (.taken data) { s₁ with popped := s₁.popped ++ [data] }).beingLinked =
          s.beingLinked := by
        apply beingLinked_moveTo
        · exact hplace
        · exact hmutex
        · simp [ht, Place.linkingValue]
        · rfl
      rw [hsame]
      simp [lockedBy, moveTo, hpushed]
  | unlockPush t ht | unlockPop t _ ht =>
      have hholds : (s.place t).Holds := by simp [ht, Place.Holds, Place.AtUnlock]
      rw [beingLinked_of_free rfl, beingLinked_of_holds hexcludes hholds, ht]
      simp [lockedBy, moveTo, Place.linkingValue]
  | signal t woken ht hwoken hsome =>
      have hsame : ({ s with place := fun u =>
          if u ∈ woken then .woken else if u = t then .outside else s.place u } :
            State τ α).beingLinked = s.beingLinked := by
        unfold State.beingLinked
        dsimp only
        cases s.mutex with
        | none => rfl
        | some u => exact signal_congr Place.linkingValue rfl rfl ht hwoken u
      rw [hsame]
      simp [lockedBy]
  | wake t ht =>
      rw [beingLinked_moveTo rfl rfl (by simp [ht, Place.linkingValue]) rfl]
      simp [lockedBy, moveTo]

theorem popped_step (hmoved : Moved s l s') : s'.popped = s.popped ++ takenBy ⟨s, l, s'⟩ := by
  cases hmoved with
  | link t a data s₁ ht hlink =>
      simp [takenBy, moveTo, (link_keeps hlink).2.2.2, Place.takenValue]
  | take t data s₁ ht hhead htake =>
      simp [takenBy, moveTo, (take_keeps htake).2.2.2, Place.takenValue]
  | noMemory | push | pop | lockPush | lockPop | wait | unlockPush | unlockPop | signal | wake =>
      simp [takenBy, moveTo, Place.takenValue]

/-- What the labels tell of a run that starts anywhere. -/
theorem order_of_run {trs : List (Transition (State τ α) (Label τ α))} (h : Run Step s trs s')
    (hsound : Sound s) (hcalls : Tracks calls s) :
    Tracks ((trs.map fun tr => tr.label).foldl callsAfter calls) s' ∧
      s'.pushed ++ s'.beingLinked =
        s.pushed ++ s.beingLinked ++ lockOrder calls (trs.map fun tr => tr.label) ∧
      s'.popped = s.popped ++ trs.flatMap takenBy := by
  induction h generalizing calls with
  | nil => exact ⟨hcalls, by simp [lockOrder], by simp⟩
  | @cons s₀ s₁ s₂ l trs hstep _ ih =>
      have hmoved := moved_of_step hstep
      obtain ⟨htracks, hpushed, hpopped⟩ := ih (hsound.step hstep) (hcalls.step hmoved)
      refine ⟨htracks, ?_, ?_⟩
      · rw [hpushed, pushed_step hcalls hsound.excludes hmoved]
        simp [lockOrder]
      · rw [hpopped, popped_step hmoved]
        simp

/-- `tiny_queue` is a FIFO: what has been taken and what is linked from `head`, in this
order, is what was pushed, in the order of the locks. A pop takes the first value, and no
step follows a bad pointer. -/
theorem tiny_queue_fifo {trs : List (Transition (State τ α) (Label τ α))}
    (h : Run Step (tinyQueueCreate : State τ α) trs s) :
    (∃ cells, Chain s.heap s.head cells ∧ (s.head = none ↔ s.tail = none) ∧
      s.tail = cells.getLast?.map Prod.fst ∧
      trs.flatMap takenBy ++ cells.map Prod.snd ++ s.beingLinked =
        lockOrder (fun _ => none) (trs.map fun tr => tr.label) ∧
      s.popped ++ cells.map Prod.snd = s.pushed) ∧
    s.popped = trs.flatMap takenBy ∧
    s.pushed ++ s.beingLinked = lockOrder (fun _ => none) (trs.map fun tr => tr.label) ∧
    (∀ t x, (trs.map fun tr => tr.label).foldl callsAfter (fun _ => none) t = some x ↔
      ∃ a, s.place t = .pushing a x) ∧
    (∀ tr ∈ trs, ∀ t data, tr.label = .act t → tr.after.place t = .taken data →
      ∃ a rest, Chain tr.before.heap tr.before.head ((a, data) :: rest)) ∧
    ∀ l : Label τ α, Possible s l → ∃ s', execute s l = .ok s' := by
  obtain ⟨hall, ⟨cells, hcells, -⟩, -⟩ := sound_of_run h
  obtain ⟨htracks, hpushed, hpopped⟩ := order_of_run h sound_create tracks_create
  have hpushed : s.pushed ++ s.beingLinked =
      lockOrder (fun _ => none) (trs.map fun tr => tr.label) := hpushed
  have hpopped : s.popped = trs.flatMap takenBy := hpopped
  refine ⟨⟨cells, hcells.chain, ?_, hcells.tail, ?_, hcells.fifo⟩, hpopped, hpushed, htracks, ?_,
    fun l => hcells.progress⟩
  · rw [hcells.chain.eq_none_iff, hcells.tail, Option.map_eq_none_iff, List.getLast?_eq_none_iff]
  · rw [← hpopped, hcells.fifo, hpushed]
  · intro tr htr t data hlabel htaken
    obtain ⟨⟨cells, hbefore, -⟩, -⟩ := hall tr htr
    obtain ⟨before, label, after⟩ := tr
    have hmoved := moved_of_step (h.step_of_mem htr)
    dsimp only at hlabel htaken hmoved hbefore ⊢
    subst hlabel
    cases hmoved with
    | link | wait => simp [moveTo_place] at htaken
    | take _ x s₁ ht hhead htake =>
        obtain ⟨a, rest, rfl, -⟩ := hbefore.taken (t := t) hhead htake
        simp only [moveTo_place, Function.update_self, Place.taken.injEq] at htaken
        exact ⟨a, rest, htaken ▸ hbefore.chain⟩

end Threads

theorem tiny_queue_fifo_push_twice :
    ∃ (trs : List (Transition (State (Fin 3) Nat) (Label (Fin 3) Nat))) (s : State (Fin 3) Nat),
      Run Step tinyQueueCreate trs s ∧ trs.map (fun tr => tr.label) = pushTwicePopOnce ∧
        trs.flatMap takenBy = [50] ∧ s.popped = [50] ∧ s.pushed = [50, 60] ∧
        lockOrder (fun _ => none) pushTwicePopOnce = [50, 60] ∧
        ∃ cells, Chain s.heap s.head cells ∧ (s.head = none ↔ s.tail = none) ∧
          s.tail = cells.getLast?.map Prod.fst ∧
          trs.flatMap takenBy ++ cells.map Prod.snd ++ s.beingLinked =
            lockOrder (fun _ => none) (trs.map fun tr => tr.label) ∧
          s.popped ++ cells.map Prod.snd = s.pushed := by
  obtain ⟨trs, s, hs, hlabels, htaken, hpopped, hpushed⟩ :
      ∃ trs s, replay (attempt Possible execute) (tinyQueueCreate : State (Fin 3) Nat)
          pushTwicePopOnce = some (trs, s) ∧
        trs.map (fun tr => tr.label) = pushTwicePopOnce ∧ trs.flatMap takenBy = [50] ∧
        s.popped = [50] ∧ s.pushed = [50, 60] :=
    ⟨_, _, rfl, rfl, rfl, rfl, rfl⟩
  have hrun := run_of_attempts hs
  exact ⟨trs, s, hrun, hlabels, htaken, hpopped, hpushed, rfl, (tiny_queue_fifo hrun).1⟩

end GwWeb.TinyQueue
