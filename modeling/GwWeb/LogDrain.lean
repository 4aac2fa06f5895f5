import GwWeb.LogLedger

/-!
The two threads of the background log, left to themselves: they stop after a number of
steps known beforehand, and not before all that was saved is written.
-/

namespace GwWeb.LogDrain

open BlockContents
open OrderedLedger
open TransitionRuns
open GwWeb.WebCommon (bind_eq_ok)
open GwWeb.TinyQueue (Place Moved)
open GwWeb.QueueHolder
open GwWeb.AutoLog
open GwWeb.LogLedger

section Cost

/-- The steps that are left of a push, and those that its item costs the other thread. -/
def producerCost : Place Nat → Nat
  | .pushing _ _ => 7
  | .linking _ _ => 6
  | .linked => 5
  | .signalling => 4
  | _ => 0

/-- The steps that are left of a round of `auto_save_thread`. -/
def consumerCost (item : Option Nat) : Place Nat → Nat
  | .outside => if item = none then 4 else 0
  | .popping | .woken => 3
  | .testing => 2
  | .taken _ => 1
  | _ => 0

/-- A bound on what the threads can do by themselves. -/
def potential {δ : Type} (s : State δ) : Nat :=
  5 * (outstanding s.queue s.item).length + producerCost (s.queue.place .eventLoop) +
    consumerCost s.item (s.queue.place .autoSaveThread)

variable {δ : Type} {percentF : δ → List UInt8} {s₀ s s' t : State δ} {l : Label δ}
  {L : Ledger (Saved δ) (List UInt8)}

/-- What the two threads do without a new call, and without being woken for nothing. -/
def Quiet : Label δ → Prop
  | .queue (.wake _) => False
  | .queue _ | .printLog _ => True
  | _ => False

instance (l : Label δ) : Decidable (Quiet l) :=
  match l with
  | .queue (.wake _) | .myLogData _ _ | .autoSaveAlarmLog _ _ _ _ => isFalse id
  | .queue (.push _ _ _) | .queue (.pop _) | .queue (.lock _) | .queue (.act _)
  | .queue (.unlock _) | .queue (.signal _ _) | .printLog _ => isTrue trivial

/-- Behind `pthread_cond_wait`, and nothing is queued. -/
def AtRest (s : State δ) : Prop :=
  s.queue.place .eventLoop = .outside ∧ s.queue.place .autoSaveThread = .waiting ∧
    outstanding s.queue s.item = []

/-- A thread has a step that is no new call. -/
def CanGoOn (percentF : δ → List UInt8) (s : State δ) : Prop :=
  ∃ l s', Quiet l ∧ Step percentF s l s'

theorem cost_lt {l : TinyQueue.Label Thread Nat} {q' : TinyQueue.State Thread Nat}
    (hroles : Roles s.queue s.item) (hown : OwnStep s l) (hquiet : Quiet (.queue l : Label δ))
    (hmoved : Moved s.queue l q') :
    producerCost (q'.place .eventLoop) + consumerCost (received s l) (q'.place .autoSaveThread) <
      producerCost (s.queue.place .eventLoop) +
        consumerCost s.item (s.queue.place .autoSaveThread) := by
  cases hmoved with
  | noMemory => exact absurd hown id
  | push => exact absurd hown id
  | wake => exact absurd hquiet id
  | pop u hu =>
      obtain ⟨rfl, hitem⟩ := hown
      simp [TinyQueue.moveTo_place, hu, hitem, consumerCost]
  | lockPush u a data hmutex hu =>
      obtain rfl := hroles.eventLoop (t := u) (by simp [hu, Consuming])
      simp [TinyQueue.moveTo_place, hu, producerCost, received]
  | lockPop u hmutex hu =>
      obtain rfl := hroles.autoSaveThread (t := u)
        (by rcases hu with hu | hu <;> simp [hu, Producing])
      rcases hu with hu | hu <;> simp [TinyQueue.moveTo_place, hu, consumerCost]
  | link u a data q₁ hu hlink =>
      obtain rfl := hroles.eventLoop (t := u) (by simp [hu, Consuming])
      obtain ⟨heap, head, tail, rfl⟩ := link_frame hlink
      simp [TinyQueue.moveTo_place, hu, producerCost, received]
  | wait u hu hhead =>
      obtain rfl := hroles.autoSaveThread (t := u) (by simp [hu, Producing])
      simp [TinyQueue.moveTo_place, hu, consumerCost]
  | take u data q₁ hu hhead htake =>
      obtain rfl := hroles.autoSaveThread (t := u) (by simp [hu, Producing])
      obtain ⟨heap, head, tail, rfl⟩ := take_frame htake
      simp [TinyQueue.moveTo_place, hu, consumerCost]
  | unlockPush u hu =>
      obtain rfl := hroles.eventLoop (t := u) (by simp [hu, Consuming])
      simp [TinyQueue.moveTo_place, hu, producerCost, received]
  | unlockPop u data hu =>
      obtain rfl := hroles.autoSaveThread (t := u) (by simp [hu, Producing])
      simp [TinyQueue.moveTo_place, hu, consumerCost, received]
  | signal u woken hu hwoken hsome =>
      obtain rfl := hroles.eventLoop (t := u) (by simp [hu, Consuming])
      have hother : Thread.eventLoop ∉ woken := by
        intro hmem
        have hwaiting := hwoken _ hmem
        simp [hu] at hwaiting
      by_cases hmem : Thread.autoSaveThread ∈ woken
      · simp [hother, hmem, hu, hwoken _ hmem, producerCost, consumerCost]
      · simp [hother, hmem, hu, producerCost, received]

theorem potential_lt (h : Keeps percentF s₀ s L) (hquiet : Quiet l) (hstep : Step percentF s l s') :
    potential s' < potential s := by
  obtain ⟨hpossible, hexecute⟩ := hstep
  cases l with
  | myLogData | autoSaveAlarmLog => exact absurd hquiet id
  | queue l =>
      obtain ⟨hqueue, hown⟩ := hpossible
      obtain ⟨q', hq', hok⟩ := bind_eq_ok.mp hexecute
      obtain rfl := Except.ok.inj hok
      have hmoved := TinyQueue.moved_of_step ⟨hqueue, hq'⟩
      have hsame := (queue_step h.sound h.roles hown hmoved).2
      have hcost := cost_lt h.roles hown hquiet hmoved
      simp only [potential, hsame]
      omega
  | printLog time =>
      obtain ⟨item, hitem⟩ := Option.ne_none_iff_exists'.mp hpossible
      have hplace := h.roles.outside hpossible
      obtain ⟨s₁, hprint, hqueue, -⟩ := h.print hitem time
      simp only [execute, hitem, hprint, bind, Except.bind] at hexecute
      obtain rfl := Except.ok.inj hexecute
      simp only [potential, hqueue, outstanding_some hitem, hplace, List.length_cons]
      simp only [consumerCost, hitem, if_true, reduceCtorEq, if_false]
      omega

theorem canGoOn_queue (h : Keeps percentF s₀ s L) {l : TinyQueue.Label Thread Nat}
    (hquiet : Quiet (.queue l : Label δ)) (hown : OwnStep s l)
    (hpossible : TinyQueue.Possible s.queue l) : CanGoOn percentF s := by
  obtain ⟨s', hexecute, -⟩ := h.step (l := .queue l) trivial ⟨hpossible, hown⟩
  exact ⟨.queue l, s', hquiet, ⟨hpossible, hown⟩, hexecute⟩

theorem canGoOn_holds (h : Keeps percentF s₀ s L) {u : Thread} (hu : (s.queue.place u).Holds) :
    CanGoOn percentF s := by
  rcases hu with hsection | hunlock
  · exact canGoOn_queue h (l := .act u) trivial trivial hsection
  · exact canGoOn_queue h (l := .unlock u) trivial trivial hunlock

theorem canGoOn_lock (h : Keeps percentF s₀ s L) {u : Thread} (hu : (s.queue.place u).AtLock) :
    CanGoOn percentF s := by
  cases hmutex : s.queue.mutex with
  | none => exact canGoOn_queue h (l := .lock u) trivial trivial ⟨hmutex, hu⟩
  | some v => exact canGoOn_holds h (h.held v hmutex)

theorem canGoOn_signal (h : Keeps percentF s₀ s L)
    (hproducer : s.queue.place .eventLoop = .signalling) : CanGoOn percentF s := by
  by_cases hconsumer : s.queue.place .autoSaveThread = .waiting
  · refine canGoOn_queue h (l := .signal .eventLoop [.autoSaveThread]) trivial trivial
      ⟨hproducer, ?_, by simp⟩
    simpa using hconsumer
  · refine canGoOn_queue h (l := .signal .eventLoop []) trivial trivial ⟨hproducer, by simp, ?_⟩
    rintro ⟨u, hu⟩
    cases u with
    | eventLoop => simp [hproducer] at hu
    | autoSaveThread => exact absurd hu hconsumer

/-- Nobody is behind with a wake-up: if the event loop is outside and the other thread
waits, the queue is empty. -/
theorem atRest_of_waiting (h : Keeps percentF s₀ s L)
    (hproducer : s.queue.place .eventLoop = .outside)
    (hconsumer : s.queue.place .autoSaveThread = .waiting) : AtRest s := by
  refine ⟨hproducer, hconsumer, ?_⟩
  obtain ⟨⟨cells, hcells, hbacked⟩, -⟩ := h.sound
  obtain ⟨threads, -, hcredit, hle⟩ := hbacked.matched .autoSaveThread hconsumer
  have hthreads : threads = [] := by
    refine List.eq_nil_iff_forall_not_mem.mpr fun u hu => ?_
    have hcredit := hcredit u hu
    cases u with
    | eventLoop => simp [hproducer, Place.Credit] at hcredit
    | autoSaveThread => simp [hconsumer, Place.Credit] at hcredit
  subst hthreads
  have hnil : cells = [] := List.eq_nil_of_length_eq_zero (Nat.le_zero.mp hle)
  have hitem : s.item = none := h.roles.item_none (by simp [hconsumer])
  simp [outstanding, hproducer, hconsumer, hitem, queued_of_fifo hcells, hnil, taken, pending]

theorem canGoOn_of_not_atRest (h : Keeps percentF s₀ s L) (hrest : ¬ AtRest s) :
    CanGoOn percentF s := by
  by_cases hitem : s.item = none
  · have hproducer := h.roles.producer
    cases hp : s.queue.place .eventLoop with
    | popping | testing | waiting | woken | taken => simp [hp, Producing] at hproducer
    | pushing => exact canGoOn_lock h (u := .eventLoop) (by simp [hp, Place.AtLock])
    | linking =>
        exact canGoOn_holds h (u := .eventLoop) (by simp [hp, Place.Holds, Place.InSection])
    | linked =>
        exact canGoOn_holds h (u := .eventLoop) (by simp [hp, Place.Holds, Place.AtUnlock])
    | signalling => exact canGoOn_signal h hp
    | outside =>
        have hconsumer := h.roles.consumer
        cases hq : s.queue.place .autoSaveThread with
        | pushing | linking | linked | signalling => simp [hq, Consuming] at hconsumer
        | outside => exact canGoOn_queue h (l := .pop .autoSaveThread) trivial ⟨rfl, hitem⟩ hq
        | popping | woken =>
            exact canGoOn_lock h (u := .autoSaveThread) (by simp [hq, Place.AtLock])
        | testing =>
            have hholds : (s.queue.place .autoSaveThread).Holds := by
              simp [hq, Place.Holds, Place.InSection]
            exact canGoOn_holds h hholds
        | taken =>
            exact canGoOn_holds h (u := .autoSaveThread) (by simp [hq, Place.Holds, Place.AtUnlock])
        | waiting => exact absurd (atRest_of_waiting h hp hq) hrest
  · obtain ⟨s', hexecute, -⟩ := h.step (l := .printLog []) trivial hitem
    exact ⟨.printLog [], s', trivial, hitem, hexecute⟩

theorem admissible_of_quiet (hquiet : Quiet l) : Admissible l := by
  cases l with
  | myLogData | queue | printLog => trivial
  | autoSaveAlarmLog => exact absurd hquiet id

theorem quiet_run_length {trs : List (Transition (State δ) (Label δ))}
    (h : Keeps percentF s₀ s L) (hrun : Run (Step percentF) s trs t)
    (hquiet : ∀ tr ∈ trs, Quiet tr.label) : trs.length + potential t ≤ potential s := by
  induction hrun generalizing L with
  | nil => simp
  | @cons a b c l trs hstep _ ih =>
      have hl := hquiet ⟨a, l, b⟩ (by simp)
      have hlt := potential_lt h hl hstep
      obtain ⟨b', hb', hkeeps⟩ := h.step (admissible_of_quiet hl) hstep.1
      obtain rfl := Except.ok.inj (hstep.2.symm.trans hb')
      have hle := ih hkeeps fun tr htr => hquiet tr (by simp [htr])
      simp only [List.length_cons]
      omega

theorem savedBy_quiet {trs : List (Transition (State δ) (Label δ))}
    (hquiet : ∀ tr ∈ trs, Quiet tr.label) : savedBy trs = [] ∧ lostBy trs = [] := by
  have hentries : ∀ e ∈ entriesOf trs, Entry.saved e = none ∧ Entry.lost e = none := by
    intro e he
    obtain ⟨tr, htr, hmem⟩ := List.mem_flatMap.mp he
    have hq := hquiet tr htr
    cases hl : tr.label with
    | myLogData | autoSaveAlarmLog => simp [hl, Quiet] at hq
    | queue => simp [hl, entries, called] at hmem
    | printLog =>
        rw [hl] at hmem
        obtain rfl := List.mem_singleton.mp hmem
        exact ⟨rfl, rfl⟩
  constructor
  · exact List.filterMap_eq_nil_iff.mpr fun e he => (hentries e he).1
  · exact List.filterMap_eq_nil_iff.mpr fun e he => (hentries e he).2

theorem linesOf_text (text : Saved δ → Option (List UInt8))
    (written : List (List UInt8 × Saved δ)) :
    (linesOf text written).map Line.text = (written.map Prod.snd).filterMap text := by
  induction written with
  | nil => rfl
  | cons w written ih =>
      rw [linesOf, List.filterMap_cons, List.map_cons, List.filterMap_cons]
      cases text w.2 with
      | none => exact ih
      | some line => exact congrArg (List.cons line) ih

theorem written_of_atRest (h : Keeps percentF s₀ s L) (hrest : AtRest s) :
    s.pfileData.map Line.text =
        s₀.pfileData.map Line.text ++ L.saved.filterMap (Saved.data percentF) ∧
      s.pAlarmfile.map Line.text =
        s₀.pAlarmfile.map Line.text ++ L.saved.filterMap Saved.alarm ∧
      ∃ left : List (Nat × Content δ), left.map Prod.snd = L.lost.filterMap Saved.buf ∧
        Exactly s.memory (left.map fun b => (b.1, .content b.2)) := by
  obtain ⟨xs, left, hxs, hwaiting, -, hleft, hexactly⟩ := h.items
  rw [hrest.2.2] at hxs
  obtain rfl := List.map_eq_nil_iff.mp hxs
  have hsaved : L.written.map Prod.snd = L.saved := by
    have hsplit := L.written_append_waiting
    rwa [← hwaiting, List.map_nil, List.append_nil] at hsplit
  refine ⟨?_, ?_, left, hleft, hexactly⟩
  · rw [h.data, List.map_append, linesOf_text, hsaved]
  · rw [h.alarms, List.map_append, linesOf_text, hsaved]

/-- Without further calls the threads stop within the bound, and where they cannot go on
every item that was saved is written, in order, and all memory is freed but for the
`buf`s that were left behind. -/
theorem log_drains {autologFileNum : Int} {fopen : String → Option (List Line)} {created : Bool}
    {trs trs' : List (Transition (State δ) (Label δ))}
    (hs : autoLogStart autologFileNum fopen created = .ok s₀)
    (hrun : Run (Step percentF) s₀ trs s) (hadmissible : ∀ tr ∈ trs, Admissible tr.label)
    (hrun' : Run (Step percentF) s trs' t) (hquiet : ∀ tr ∈ trs', Quiet tr.label) :
    trs'.length ≤ potential s ∧ (CanGoOn percentF t ∨
      t.pfileData.map Line.text =
          s₀.pfileData.map Line.text ++ (savedBy trs).filterMap (Saved.data percentF) ∧
        t.pAlarmfile.map Line.text =
          s₀.pAlarmfile.map Line.text ++ (savedBy trs).filterMap Saved.alarm ∧
        ∃ left : List (Nat × Content δ),
          left.map Prod.snd = (lostBy trs).filterMap Saved.buf ∧
          Exactly t.memory (left.map fun b => (b.1, .content b.2))) := by
  have hkeeps := Keeps.run (keeps_start percentF hs) hrun hadmissible
  have hkeeps' := hkeeps.run hrun' fun tr htr => admissible_of_quiet (hquiet tr htr)
  have hlength := quiet_run_length hkeeps hrun' hquiet
  refine ⟨by omega, ?_⟩
  by_cases hrest : AtRest t
  · right
    obtain ⟨hsaved, hlost⟩ := savedBy_quiet hquiet
    have hledger := (Ledger.empty : Ledger (Saved δ) (List UInt8)).after_saved (entriesOf trs)
    have hledger' := (Ledger.empty.after (entriesOf trs)).after_saved (entriesOf trs')
    have hwritten := written_of_atRest hkeeps' hrest
    rw [hledger'.1, hledger'.2, hledger.1, hledger.2] at hwritten
    simp only [savedBy, lostBy] at hsaved hlost ⊢
    rw [hsaved, hlost] at hwritten
    simpa [Ledger.empty] using hwritten
  · exact .inl (canGoOn_of_not_atRest hkeeps' hrest)

end Cost

/-- The calls of `saveTwice`, and what `auto_save_thread` does until it waits. -/
def drainSteps : List (Label Nat) :=
  saveTwice.drop 6 ++ [.queue (.pop .autoSaveThread), .queue (.lock .autoSaveThread),
    .queue (.act .autoSaveThread)]

theorem log_drains_twice :
    ∃ (s t : State Nat) (trs trs' : List (Transition (State Nat) (Label Nat))),
      Run (Step fun _ => []) startState trs s ∧ Run (Step fun _ => []) s trs' t ∧
      savedBy trs = [⟨.logHighTemp, some (.text [104, 0])⟩] ∧ AtRest t ∧
      trs'.length = 8 ∧ potential s = 9 ∧
      (trs'.length ≤ potential s ∧ (CanGoOn (fun _ => []) t ∨
        t.pfileData.map Line.text = startState.pfileData.map Line.text ++
            (savedBy trs).filterMap (Saved.data fun _ => []) ∧
          t.pAlarmfile.map Line.text = startState.pAlarmfile.map Line.text ++
            (savedBy trs).filterMap Saved.alarm ∧
          ∃ left : List (Nat × Content Nat),
            left.map Prod.snd = (lostBy trs).filterMap Saved.buf ∧
            Exactly t.memory (left.map fun b => (b.1, .content b.2)))) := by
  obtain ⟨s, t, trs, trs', hreplay, hreplay', hlabels, hlabels', hsaved, hlength, hpotential,
      hrest⟩ : ∃ s t trs trs',
        replay (attempt Possible (execute fun _ => [])) startState (saveTwice.take 6) =
          some (trs, s) ∧
        replay (attempt Possible (execute fun _ => [])) s drainSteps = some (trs', t) ∧
        trs.map (fun tr => tr.label) = saveTwice.take 6 ∧
        trs'.map (fun tr => tr.label) = drainSteps ∧
        savedBy trs = [⟨.logHighTemp, some (.text [104, 0])⟩] ∧ trs'.length = 8 ∧
        potential s = 9 ∧ AtRest t :=
    ⟨_, _, _, _, rfl, rfl, rfl, rfl, rfl, rfl, rfl, rfl, rfl, rfl⟩
  have hadmissible : ∀ tr ∈ trs, Admissible tr.label := by
    intro tr htr
    have hall : ∀ l ∈ saveTwice.take 6, Admissible l := by decide
    exact hall tr.label (hlabels ▸ List.mem_map_of_mem htr)
  have hquiet : ∀ tr ∈ trs', Quiet tr.label := by
    intro tr htr
    have hall : ∀ l ∈ drainSteps, Quiet l := by decide
    exact hall tr.label (hlabels' ▸ List.mem_map_of_mem htr)
  have hrun := run_of_attempts hreplay
  have hrun' := run_of_attempts hreplay'
  have hdrains := @log_drains Nat (fun _ => []) startState s t 0 (fun _ => some []) true trs trs'
    rfl hrun hadmissible hrun' hquiet
  exact ⟨s, t, trs, trs', hrun, hrun', hsaved, hrest, hlength, hpotential, hdrains⟩

end GwWeb.LogDrain
