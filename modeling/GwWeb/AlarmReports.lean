import GwWeb.LogLedger
import GwWeb.SystemState

/-!
The alarms of the event loop: `process_exception` saves one for every report that the
device is not ready, and `auto_save_thread` writes it to the file of alarms.
-/

namespace GwWeb.AlarmReports

open OrderedLedger
open TextReading
open TransitionRuns
open GwWeb.WebCommon (Fault bind_eq_ok)
open GwWeb.SystemState (StatReady)
open GwWeb.AutoLog (Mallocs Line CanSave)
open GwWeb.LogLedger

/-- The device and its reports beside the log. -/
structure State (δ : Type) where
  system : SystemState.State
  log : AutoLog.State δ

/-- `log` is a step of the two threads that is not a call. -/
inductive Label (δ : Type) where
  | event (e : SystemState.Event) (m : Mallocs)
  | log (l : AutoLog.Label δ)

/-- `tmp_str` of `process_exception`, with its NUL. -/
def tmpStr (stat : String) : List UInt8 := stringBytes ("device is not ready ! " ++ stat) ++ [0]

/-- The `stat` of a report that the device is not ready. -/
def alarmed : SystemState.Event → Option String
  | .systemStateException (some stat) => if StatReady stat then none else some stat
  | _ => none

/-- The text of its alarm in the file. -/
def reportText (stat : String) : List UInt8 :=
  AutoLog.alarmText "Alarm Event : radio system exception --- "
    (stringBytes ("device is not ready ! " ++ stat))

section Functions

variable {δ : Type} (percentF : δ → List UInt8)

/-- The last thing `process_exception` does. -/
def saveAlarm (e : SystemState.Event) (m : Mallocs) (log : AutoLog.State δ) :
    Except Fault (AutoLog.State δ) :=
  match alarmed e with
  | none => .ok log
  | some stat =>
      AutoLog.autoSaveAlarmLog (tmpStr stat) (tmpStr stat).length .logRadioException m log

def execute (s : State δ) : Label δ → Except Fault (State δ)
  | .event e m => do
      let system ← SystemState.execute s.system e
      let log ← saveAlarm e m s.log
      return { system, log }
  | .log l => do
      let log ← AutoLog.execute percentF s.log l
      return { s with log }

/-- An event comes while the event loop is outside the queue of the log. -/
def Possible (s : State δ) : Label δ → Prop
  | .event e m => SystemState.Possible s.system e ∧ s.log.queue.place .eventLoop = .outside ∧
      (alarmed e ≠ none → CanSave m s.log)
  | .log l => AutoLog.Possible s.log l ∧ called l = none

abbrev Step : State δ → Label δ → State δ → Prop := Executes Possible (execute percentF)

/-- The start of the program, with the log running. -/
structure Started (s : State δ) : Prop where
  system : SystemState.Started s.system
  log : ∃ autologFileNum fopen created,
    AutoLog.autoLogStart autologFileNum fopen created = .ok s.log

/-- The item of an alarm. -/
def radio (stat : String) : Saved δ := ⟨.logRadioException, some (.text (tmpStr stat))⟩

/-- What a step means for the ledger of the log. -/
def entries : Label δ → List (Entry (Saved δ) (List UInt8))
  | .event e m => (alarmed e).toList.map fun stat => enter m (radio stat)
  | .log l => LogLedger.entries l

def entriesOf (trs : List (Transition (State δ) (Label δ))) :
    List (Entry (Saved δ) (List UInt8)) := trs.flatMap fun tr => entries tr.label

/-- The report whose alarm a step queues. -/
def queuedReport : Label δ → Option String
  | .event e m => if m.newNode = none then none else alarmed e
  | .log _ => none

/-- The reports whose alarms were queued, in the order the event loop took them. -/
def queuedReports (trs : List (Transition (State δ) (Label δ))) : List String :=
  trs.filterMap fun tr => queuedReport tr.label

instance (s : State δ) (l : Label δ) : Decidable (Possible s l) :=
  match l with
  | .event e m => inferInstanceAs (Decidable (SystemState.Possible s.system e ∧
      s.log.queue.place .eventLoop = .outside ∧ (alarmed e ≠ none → CanSave m s.log)))
  | .log _ => inferInstanceAs (Decidable (_ ∧ called _ = none))

end Functions

section Steps

variable {δ : Type} {percentF : δ → List UInt8} {s₀ : AutoLog.State δ} {s s' : State δ}
  {L : Ledger (Saved δ) (List UInt8)} {l : Label δ}

theorem length_tmpStr_ne_zero (stat : String) : (tmpStr stat).length ≠ 0 := by
  simp [tmpStr]

theorem takeWhile_tmpStr (stat : String) :
    (tmpStr stat).takeWhile (fun b => b ≠ 0) = stringBytes ("device is not ready ! " ++ stat) := by
  have hall : ∀ b ∈ stringBytes ("device is not ready ! " ++ stat), decide (b ≠ 0) = true := by
    intro b hb
    unfold stringBytes at hb
    simpa using List.mem_takeWhile_imp hb
  rw [tmpStr, List.takeWhile_append_of_pos hall]
  simp

theorem alarm_radio (stat : String) : (radio stat : Saved δ).alarm = some (reportText stat) := by
  simp only [radio, Saved.alarm, takeWhile_tmpStr, reportText]

theorem saveAlarm_eq (percentF : δ → List UInt8) {e : SystemState.Event} {stat : String}
    (m : Mallocs)
    (halarmed : alarmed e = some stat) (log : AutoLog.State δ) :
    saveAlarm e m log = AutoLog.execute percentF log
      (.autoSaveAlarmLog (tmpStr stat) (tmpStr stat).length .logRadioException m) := by
  rw [saveAlarm, halarmed]
  rfl

theorem called_alarm (stat : String) (m : Mallocs) :
    called (.autoSaveAlarmLog (tmpStr stat) (tmpStr stat).length .logRadioException m :
      AutoLog.Label δ) = some (m, radio stat) := by
  simp only [called, if_neg (length_tmpStr_ne_zero stat), List.take_length, radio]

theorem admissible_alarm (stat : String) (m : Mallocs) :
    AutoLog.Admissible (.autoSaveAlarmLog (tmpStr stat) (tmpStr stat).length .logRadioException m :
      AutoLog.Label δ) := by
  refine ⟨le_rfl, by simp, fun _ => ?_⟩
  rw [List.take_length, tmpStr]
  exact List.mem_append_right _ List.mem_cons_self

theorem keeps_step (h : Keeps percentF s₀ s.log L) (hpossible : Possible s l)
    (hevent : ∀ e m, l = .event e m → ∃ system, SystemState.execute s.system e = .ok system) :
    ∃ s', execute percentF s l = .ok s' ∧ Keeps percentF s₀ s'.log (L.after (entries l)) := by
  cases l with
  | log l =>
      obtain ⟨hpossible, hcalled⟩ := hpossible
      have hadmissible : AutoLog.Admissible l := by
        cases l with
        | myLogData | queue | printLog => trivial
        | autoSaveAlarmLog => cases hcalled
      obtain ⟨log, hlog, hkeeps⟩ := h.step hadmissible hpossible
      refine ⟨{ s with log }, ?_, hkeeps⟩
      simp [execute, hlog, bind, Except.bind, pure, Except.pure]
  | event e m =>
      obtain ⟨-, houtside, hcan⟩ := hpossible
      obtain ⟨system, hsystem⟩ := hevent e m rfl
      cases halarmed : alarmed e with
      | none =>
          refine ⟨⟨system, s.log⟩, ?_, ?_⟩
          · simp [execute, hsystem, saveAlarm, halarmed, bind, Except.bind, pure, Except.pure]
          · simpa [entries, halarmed] using h
      | some stat =>
          obtain ⟨log, hlog, hkeeps⟩ := h.step (admissible_alarm stat m) (hcan (by simp [halarmed]))
          refine ⟨⟨system, log⟩, ?_, ?_⟩
          · simp [execute, hsystem, saveAlarm_eq percentF m halarmed, hlog, bind,
              Except.bind, pure, Except.pure]
          · simpa [entries, halarmed, LogLedger.entries, called_alarm] using hkeeps

theorem keeps_run {trs : List (Transition (State δ) (Label δ))} {t : State δ}
    (h : Keeps percentF s₀ s.log L) (hrun : Run (Step percentF) s trs t) :
    Keeps percentF s₀ t.log (L.after (entriesOf trs)) := by
  induction hrun generalizing L with
  | nil => exact h
  | @cons a b c l trs hstep _ ih =>
      have hevent : ∀ e m, l = .event e m →
          ∃ system, SystemState.execute a.system e = .ok system := by
        rintro e m rfl
        obtain ⟨system, hsystem, -⟩ := bind_eq_ok.mp hstep.2
        exact ⟨system, hsystem⟩
      obtain ⟨b', hb', hkeeps⟩ := keeps_step h hstep.1 hevent
      obtain rfl := Except.ok.inj (hstep.2.symm.trans hb')
      rw [entriesOf, List.flatMap_cons, Ledger.after_append]
      exact ih hkeeps

theorem entries_saved (hpossible : Possible s l) :
    (entries l).filterMap Entry.saved = (queuedReport l).toList.map radio := by
  cases l with
  | log l =>
      cases l with
      | myLogData | autoSaveAlarmLog => cases hpossible.2
      | queue | printLog => rfl
  | event e m =>
      cases halarmed : alarmed e with
      | none => simp [entries, queuedReport, halarmed]
      | some stat =>
          cases hnode : m.newNode <;>
            simp [entries, queuedReport, halarmed, hnode, enter, Entry.saved]

theorem queuedReports_cons (tr : Transition (State δ) (Label δ))
    (trs : List (Transition (State δ) (Label δ))) :
    queuedReports (tr :: trs) = (queuedReport tr.label).toList ++ queuedReports trs := by
  rw [queuedReports, List.filterMap_cons]
  cases queuedReport tr.label <;> rfl

theorem saved_queuedReports {trs : List (Transition (State δ) (Label δ))}
    (hpossible : ∀ tr ∈ trs, Possible tr.before tr.label) :
    (entriesOf trs).filterMap Entry.saved = (queuedReports trs).map radio := by
  induction trs with
  | nil => rfl
  | cons tr trs ih =>
      have hrest := ih fun tr' htr' => hpossible tr' (List.mem_cons_of_mem _ htr')
      have hfirst := entries_saved (hpossible tr List.mem_cons_self)
      rw [entriesOf, List.flatMap_cons, List.filterMap_append, ← entriesOf, hfirst, hrest,
        queuedReports_cons, List.map_append]

theorem written_of_map {written : List (List UInt8 × Saved δ)} {stats : List String}
    (h : written.map Prod.snd = stats.map radio) :
    ∃ reports : List (List UInt8 × String), reports.map Prod.snd = stats ∧
      linesOf Saved.alarm written = reports.map fun r => ⟨r.1, reportText r.2⟩ := by
  induction written generalizing stats with
  | nil =>
      obtain rfl := List.map_eq_nil_iff.mp h.symm
      exact ⟨[], rfl, rfl⟩
  | cons w written ih =>
      obtain ⟨stat, stats, rfl, hw, hrest⟩ := List.map_eq_cons_iff.mp h.symm
      obtain ⟨reports, hreports, hlines⟩ := ih hrest.symm
      refine ⟨(w.1, stat) :: reports, by rw [List.map_cons, hreports], ?_⟩
      rw [linesOf, List.filterMap_cons, ← hw, alarm_radio]
      exact congrArg (List.cons _) hlines

theorem data_radio (stats : List String) (written : List (List UInt8 × Saved δ))
    (h : written.map Prod.snd = stats.map radio) : linesOf (Saved.data percentF) written = [] := by
  refine List.filterMap_eq_nil_iff.mpr fun w hw => ?_
  have hmem : w.2 ∈ stats.map radio := h ▸ List.mem_map_of_mem hw
  obtain ⟨stat, -, hstat⟩ := List.mem_map.mp hmem
  rw [← hstat]
  rfl

/-- The file of alarms holds the alarm of every report that the device is not ready, in
the order of the reports, but for those whose items are on their way; the file of data
is not written, and the log stops no event. -/
theorem reports_logged {trs : List (Transition (State δ) (Label δ))} {s₀ : State δ}
    (hs : Started s₀) (hrun : Run (Step percentF) s₀ trs s) :
    (∃ (reports : List (List UInt8 × String)) (waiting : List String),
      reports.map Prod.snd ++ waiting = queuedReports trs ∧
      s.log.pAlarmfile = s₀.log.pAlarmfile ++ reports.map (fun r => ⟨r.1, reportText r.2⟩) ∧
      waiting.length = (outstanding s.log.queue s.log.item).length) ∧
    s.log.pfileData = s₀.log.pfileData ∧
    ∀ l, Possible s l →
      (∀ e m, l = .event e m → ∃ system, SystemState.execute s.system e = .ok system) →
      ∃ s', execute percentF s l = .ok s' := by
  obtain ⟨autologFileNum, fopen, created, hlog⟩ := hs.log
  have hkeeps := keeps_run (keeps_start percentF hlog) hrun
  have hsaved := (Ledger.empty.after_saved (entriesOf trs)).1.trans
    (saved_queuedReports fun tr htr => (hrun.step_of_mem htr).1)
  have hsplit := (Ledger.empty.after (entriesOf trs)).written_append_waiting.trans hsaved
  obtain ⟨stats, waiting, hstats, hwritten, hwaiting⟩ := List.append_eq_map_iff.mp hsplit
  obtain ⟨reports, rfl, hlines⟩ := written_of_map hwritten.symm
  refine ⟨⟨reports, waiting, hstats.symm, ?_, ?_⟩, ?_, fun l hpossible hevent => ?_⟩
  · rw [hkeeps.alarms, hlines]
  · obtain ⟨xs, left, hxs, hitems, -⟩ := hkeeps.items
    rw [← hxs, List.length_map, ← @List.length_map _ _ waiting radio, hwaiting, ← hitems,
      List.length_map]
  · rw [hkeeps.data, data_radio _ _ hwritten.symm, List.append_nil]
  · obtain ⟨s', hs', -⟩ := keeps_step hkeeps hpossible hevent
    exact ⟨s', hs'⟩

end Steps

def startState : State Nat where
  system := SystemState.startState ⟨"dev", "1"⟩ ⟨"dev", "0"⟩
  log := LogLedger.startState

theorem startState_started : Started startState where
  system := SystemState.startState_started _ _
  log := ⟨0, fun _ => some [], true, rfl⟩

/-- The device is reported as not ready twice; the first alarm is written, and the second
one waits in the queue. -/
def reportTwice : List (Label Nat) :=
  [.event (.systemStateException (some "0x01")) ⟨10, 11, some 0⟩] ++
    ([.queue (.lock .eventLoop), .queue (.act .eventLoop), .queue (.unlock .eventLoop),
      .queue (.signal .eventLoop [])] : List (AutoLog.Label Nat)).map .log ++
  [.event (.systemStateException (some "0x02")) ⟨12, 13, some 1⟩] ++
    ([.queue (.lock .eventLoop), .queue (.act .eventLoop), .queue (.unlock .eventLoop),
      .queue (.signal .eventLoop []), .queue (.pop .autoSaveThread),
      .queue (.lock .autoSaveThread), .queue (.act .autoSaveThread),
      .queue (.unlock .autoSaveThread), .printLog [49]] : List (AutoLog.Label Nat)).map .log

theorem reports_logged_twice :
    ∃ (trs : List (Transition (State Nat) (Label Nat))) (s : State Nat),
      Run (Step fun _ => []) startState trs s ∧ queuedReports trs = ["0x01", "0x02"] ∧
      (outstanding s.log.queue s.log.item).length = 1 ∧
      ((∃ (reports : List (List UInt8 × String)) (waiting : List String),
        reports.map Prod.snd ++ waiting = queuedReports trs ∧
        s.log.pAlarmfile = startState.log.pAlarmfile ++
          reports.map (fun r => ⟨r.1, reportText r.2⟩) ∧
        waiting.length = (outstanding s.log.queue s.log.item).length) ∧
      s.log.pfileData = startState.log.pfileData ∧
      ∀ l, Possible s l →
        (∀ e m, l = .event e m → ∃ system, SystemState.execute s.system e = .ok system) →
        ∃ s', execute (fun _ => []) s l = .ok s') := by
  obtain ⟨trs, s, hreplay, hreports, hwaiting⟩ :
      ∃ trs s, replay (attempt Possible (execute fun _ => [])) startState reportTwice =
          some (trs, s) ∧ queuedReports trs = ["0x01", "0x02"] ∧
        (outstanding s.log.queue s.log.item).length = 1 :=
    ⟨_, _, rfl, rfl, rfl⟩
  have hrun := run_of_attempts hreplay
  exact ⟨trs, s, hrun, hreports, hwaiting, reports_logged startState_started hrun⟩

end GwWeb.AlarmReports
