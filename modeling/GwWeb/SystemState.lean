import GwWeb.SessionRoster

/-!
Whether the device is ready, in `mosquitto_broker.c`: `system_ready`, the reports
of `process_exception` to every session, and the answers of
`inquiry_system_state` to the one that asks.
-/

namespace GwWeb.SystemState

open TransitionRuns
open GwWeb.WebCommon
open GwWeb.Server
open GwWeb.MosquittoBroker
open GwWeb.EventProcess
open GwWeb.SessionRoster

/-- `heard` is the readiness in the last system-state message to a session, if it
was sent one. -/
structure State where
  loop : EventProcess.State
  systemReady : Int
  heard : Nat → Option Int

/-- `sprintf` into `tmp_str`. -/
def sprintfTmpStr (text : String) : Except Fault String :=
  if text.utf8ByteSize < 256 then .ok text else .error .badLength

/-- The value of `system_state` in a response. -/
def systemStateResponse (isReady : Int) : Int := if isReady = 1 then 1 else 0

/-- What a session has been told last. -/
def assembleFrameAndSend (addr : Nat) (response : Int) (s : State) : State :=
  { s with heard := Function.update s.heard addr (some response) }

/-- The loop over `user_session_node_head`. -/
def sendToAll (response : Int) (s : State) : State :=
  s.loop.server.userSessionNodeHead.foldl (fun s n => assembleFrameAndSend n.addr response s) s

/-- The two values of `stat` that mean ready. -/
def StatReady (stat : String) : Prop := stat = "0x20" ∨ stat = "0x80000020"

instance (stat : String) : Decidable (StatReady stat) := inferInstanceAs (Decidable (_ ∨ _))

/-- The report of a `stat`, which is missing in some. -/
def processException (stat : Option String) (s : State) : Except Fault State :=
  match stat with
  | none => .error .nullPointer
  | some stat =>
      if StatReady stat then
        if s.systemReady = 0 then
          let s := { s with systemReady := 1 }
          .ok (sendToAll (systemStateResponse s.systemReady) s)
        else .ok s
      else do
        let s := { s with systemReady := 0 }
        let _ ← sprintfTmpStr ("device is not ready ! " ++ stat)
        return sendToAll (systemStateResponse s.systemReady) s

def parseSystemState (addr : Nat) (statBufLen : Int) (stat : Option String) (s : State) :
    Except Fault State :=
  if statBufLen = 0 then
    let s := { s with systemReady := 0 }
    .ok (assembleFrameAndSend addr (systemStateResponse s.systemReady) s)
  else
    match stat with
    | none => .error .nullPointer
    | some stat =>
        if StatReady stat then
          let s := { s with systemReady := 1 }
          .ok (assembleFrameAndSend addr (systemStateResponse s.systemReady) s)
        else do
          let s := { s with systemReady := 0 }
          let _ ← sprintfTmpStr
            ("device is not ready , SystemState not 0x20 !!! " ++ stat ++ " \n")
          return assembleFrameAndSend addr (systemStateResponse s.systemReady) s

def inquirySystemState (addr : Nat) (reply : TransferReply) (s : State) : Except Fault State :=
  if reply.Delivered then parseSystemState addr reply.statBufLen reply.stat s else .ok s

/-- A message of the loop, an inquiry, or a report of the device. -/
inductive Event where
  | loop (l : EventProcess.Label)
  | inquirySystemState (asker : Nat) (reply : TransferReply)
  | systemStateException (stat : Option String)

def execute (s : State) : Event → Except Fault State
  | .loop l => do
      let loop ← eventLoop s.loop l
      return { s with loop }
  | .inquirySystemState asker reply => do
      let n ← pointedTo asker s.loop.server
      inquirySystemState n.addr reply s
  | .systemStateException stat => processException stat s

def Possible (s : State) : Event → Prop
  | .loop l => InSession s.loop l.event
  | _ => True

instance (s : State) (e : Event) : Decidable (Possible s e) :=
  match e with
  | .loop l => inferInstanceAs (Decidable (InSession s.loop l.event))
  | .inquirySystemState _ _ => isTrue trivial
  | .systemStateException _ => isTrue trivial

abbrev Step : State → Event → State → Prop := Executes Possible execute

structure Started (s : State) : Prop where
  loop : EventProcess.Started s.loop
  systemReady : s.systemReady = 0
  heard : ∀ addr, s.heard addr = none

/-- The readiness that a report states. -/
def readiness (stat : String) : Int := if StatReady stat then 1 else 0

/-- Every connected session that was told was told this readiness last, and
`system_ready` says the same. -/
structure AgreedOn (ready : Int) (s : State) : Prop where
  systemReady : s.systemReady = ready
  heard : ∀ n ∈ s.loop.server.userSessionNodeHead, ∀ v, s.heard n.addr = some v → v = ready

/-- A report that is handled now leaves the sessions agreed on what it states. -/
def ReportAgrees (s : State) : Prop :=
  ∀ stat s', processException (some stat) s = .ok s' → AgreedOn (readiness stat) s'

/-- The device answers that it is ready. -/
def AnsweredReady (reply : TransferReply) : Prop :=
  reply.Delivered ∧ ∃ stat ∈ reply.stat, StatReady stat

/-- A session is answered that the device is ready only while no other connected
session was told last that it is not. -/
def KeepsAgreed (s : State) : Event → Prop
  | .inquirySystemState asker reply =>
      AnsweredReady reply → ∀ n ∈ s.loop.server.userSessionNodeHead, n.addr ≠ asker →
        s.heard n.addr ≠ some 0
  | _ => True

instance (reply : TransferReply) : Decidable (AnsweredReady reply) :=
  inferInstanceAs (Decidable (_ ∧ _))

instance (s : State) (e : Event) : Decidable (KeepsAgreed s e) :=
  match e with
  | .loop _ => isTrue trivial
  | .inquirySystemState asker reply =>
      inferInstanceAs (Decidable (AnsweredReady reply →
        ∀ n ∈ s.loop.server.userSessionNodeHead, n.addr ≠ asker → s.heard n.addr ≠ some 0))
  | .systemStateException _ => isTrue trivial

section Steps

variable {s s' : State} {e : Event}

theorem sendToAll_eq (response : Int) (s : State) :
    sendToAll response s = { s with
      heard := fun addr =>
        if addr ∈ connected s.loop.server then some response else s.heard addr } := by
  have hloop : ∀ (l : List UserSessionNode) (s : State),
      l.foldl (fun s n => assembleFrameAndSend n.addr response s) s = { s with
        heard := fun addr =>
          if addr ∈ l.map UserSessionNode.addr then some response else s.heard addr } := by
    intro l
    induction l with
    | nil => intro s; simp
    | cons n l ih =>
        intro s
        rw [List.foldl_cons, ih]
        simp only [assembleFrameAndSend, State.mk.injEq, true_and]
        funext addr
        rcases eq_or_ne addr n.addr with rfl | hne
        · simp
        · simp [hne]
  exact hloop _ s

theorem processException_eq_ok {stat : Option String} (h : processException stat s = .ok s') :
    ∃ text, stat = some text ∧
      (StatReady text ∧ s.systemReady ≠ 0 ∧ s' = s ∨
        (StatReady text → s.systemReady = 0) ∧
          s' = sendToAll (readiness text) { s with systemReady := readiness text }) := by
  cases stat with
  | none => cases h
  | some text =>
      refine ⟨text, rfl, ?_⟩
      simp only [processException] at h
      split at h
      · rename_i hready
        split at h
        · rename_i hold
          obtain rfl := Except.ok.inj h
          exact .inr ⟨fun _ => hold, by simp [readiness, hready, systemStateResponse]⟩
        · rename_i hold
          obtain rfl := Except.ok.inj h
          exact .inl ⟨hready, hold, rfl⟩
      · rename_i hready
        obtain ⟨_, -, h⟩ := bind_eq_ok.mp h
        obtain rfl := Except.ok.inj h
        exact .inr ⟨fun hyes => absurd hyes hready, by
          simp [readiness, hready, systemStateResponse]⟩

theorem inquirySystemState_eq_ok {addr : Nat} {reply : TransferReply}
    (h : inquirySystemState addr reply s = .ok s') :
    ¬ reply.Delivered ∧ s' = s ∨
      ∃ text, reply.Delivered ∧ reply.stat = some text ∧
        s' = assembleFrameAndSend addr (readiness text)
          { s with systemReady := readiness text } := by
  unfold inquirySystemState at h
  split at h
  · rename_i hdelivered
    unfold parseSystemState at h
    rw [if_neg (Int.ne_of_gt hdelivered.2)] at h
    split at h
    · cases h
    · rename_i text htext
      refine .inr ⟨text, hdelivered, htext, ?_⟩
      split at h
      · rename_i hready
        obtain rfl := Except.ok.inj h
        simp [readiness, hready, systemStateResponse]
      · rename_i hready
        obtain ⟨_, -, h⟩ := bind_eq_ok.mp h
        obtain rfl := Except.ok.inj h
        simp [readiness, hready, systemStateResponse]
  · rename_i hlost
    obtain rfl := Except.ok.inj h
    exact .inl ⟨hlost, rfl⟩

/-- What is told is 0 or 1, and to sessions that there have been. -/
structure Inv (s : State) : Prop where
  numbered : (roster s.loop.server).Numbered
  systemReady : s.systemReady = 0 ∨ s.systemReady = 1
  heard : ∀ addr v, s.heard addr = some v → v = 0 ∨ v = 1
  fresh : ∀ addr, s.loop.server.allocated ≤ addr → s.heard addr = none

/-- While the device counts as ready nobody was told last that it is not. -/
def Settled (s : State) : Prop :=
  s.systemReady = 1 → ∀ n ∈ s.loop.server.userSessionNodeHead, s.heard n.addr ≠ some 0

theorem readiness_eq (stat : String) : readiness stat = 0 ∨ readiness stat = 1 := by
  unfold readiness
  split
  · exact .inr rfl
  · exact .inl rfl

theorem agreedOn_sendToAll {ready : Int} (hready : s.systemReady = ready) :
    AgreedOn ready (sendToAll ready s) := by
  rw [sendToAll_eq]
  refine ⟨hready, fun n hn v hv => ?_⟩
  have hin : n.addr ∈ connected s.loop.server := List.mem_map_of_mem hn
  simp only [hin, if_true, Option.some.injEq] at hv
  exact hv.symm

theorem reportAgrees_iff (h : Inv s) : ReportAgrees s ↔ Settled s := by
  constructor
  · intro hagrees hready n hn hold
    have hreport : processException (some "0x20") s = .ok s := by
      simp [processException, StatReady, hready]
    have hzero : (0 : Int) = readiness "0x20" := (hagrees "0x20" s hreport).heard n hn 0 hold
    simp [readiness, StatReady] at hzero
  · intro hsettled stat s' hreport
    obtain ⟨text, htext, hkept | ⟨-, rfl⟩⟩ := processException_eq_ok hreport
    · obtain ⟨hready, hold, rfl⟩ := hkept
      obtain rfl := Option.some.inj htext
      have hone : s'.systemReady = 1 := h.systemReady.resolve_left hold
      have hreadiness : readiness stat = 1 := by simp [readiness, hready]
      refine ⟨hone.trans hreadiness.symm, fun n hn v hv => ?_⟩
      rw [hreadiness]
      refine (h.heard n.addr v hv).resolve_left fun hzero => ?_
      rw [hzero] at hv
      exact hsettled hone n hn hv
    · obtain rfl := Option.some.inj htext
      exact agreedOn_sendToAll rfl

theorem Inv.step (h : Inv s) (hstep : Step s e s') : Inv s' := by
  obtain ⟨-, hok⟩ := hstep
  cases e with
  | loop l =>
      obtain ⟨loop', hloop, hok⟩ := bind_eq_ok.mp hok
      obtain rfl := Except.ok.inj hok
      have hroster := roster_eventLoop hloop
      refine ⟨hroster ▸ numbered_rosterAfter h.numbered l, h.systemReady, h.heard, ?_⟩
      intro addr haddr
      refine h.fresh addr (Nat.le_trans ?_ haddr)
      have hallocated := allocated_rosterAfter s.loop l
      rw [← hroster] at hallocated
      exact hallocated
  | inquirySystemState asker reply =>
      obtain ⟨n, hn, hok⟩ := bind_eq_ok.mp hok
      obtain ⟨-, rfl⟩ | ⟨text, -, -, rfl⟩ := inquirySystemState_eq_ok hok
      · exact h
      · have hlisted := (mem_of_pointedTo hn).1
        refine ⟨h.numbered, readiness_eq text, fun addr v hv => ?_, fun addr haddr => ?_⟩
        · rcases eq_or_ne addr n.addr with rfl | hne
          · simp only [assembleFrameAndSend, Function.update_self, Option.some.injEq] at hv
            exact hv ▸ readiness_eq text
          · exact h.heard addr v (by simpa [assembleFrameAndSend, hne] using hv)
        · have hne : addr ≠ n.addr :=
            Nat.ne_of_gt (Nat.lt_of_lt_of_le (h.numbered.lt_allocated hlisted) haddr)
          simpa [assembleFrameAndSend, hne] using h.fresh addr haddr
  | systemStateException stat =>
      obtain ⟨text, -, ⟨-, -, rfl⟩ | ⟨-, rfl⟩⟩ := processException_eq_ok hok
      · exact h
      · rw [sendToAll_eq]
        refine ⟨h.numbered, readiness_eq text, fun addr v hv => ?_, fun addr haddr => ?_⟩
        · dsimp only at hv
          split at hv
          · exact Option.some.inj hv ▸ readiness_eq text
          · exact h.heard addr v hv
        · have hout : addr ∉ connected s.loop.server := by
            intro hin
            obtain ⟨n, hn, rfl⟩ := List.mem_map.mp hin
            exact absurd haddr (Nat.not_le_of_lt (h.numbered.lt_allocated hn))
          simpa [hout] using h.fresh addr haddr

theorem settled_loop {loop' : EventProcess.State} {l : EventProcess.Label} (h : Inv s)
    (hs : Settled s) (hloop : eventLoop s.loop l = .ok loop') :
    Settled { s with loop := loop' } := by
  intro hready n hn
  have hlisted : member n ∈ (rosterAfter s.loop l).members := by
    rw [← roster_eventLoop hloop]
    exact List.mem_map_of_mem hn
  rcases mem_rosterAfter hlisted with hold | hnew
  · obtain ⟨m, hm, hsame⟩ := List.mem_map.mp hold
    have haddr : m.addr = n.addr := congrArg Member.addr hsame
    rw [← haddr]
    exact hs hready m hm
  · have hnone : s.heard n.addr = none := h.fresh n.addr (Nat.le_of_eq hnew.symm)
    simp [hnone]

theorem settled_inquiry_iff {asker : Nat} {reply : TransferReply} {n : UserSessionNode}
    (hs : Settled s) (hn : pointedTo asker s.loop.server = .ok n)
    (hok : inquirySystemState n.addr reply s = .ok s') :
    Settled s' ↔ KeepsAgreed s (.inquirySystemState asker reply) := by
  have haddr := (mem_of_pointedTo hn).2
  simp only [KeepsAgreed]
  obtain ⟨hlost, rfl⟩ | ⟨text, hdelivered, htext, rfl⟩ := inquirySystemState_eq_ok hok
  · exact iff_of_true hs fun hanswered => absurd hanswered.1 hlost
  · by_cases hready : StatReady text
    · have hanswered : AnsweredReady reply := ⟨hdelivered, text, htext, hready⟩
      have hone : readiness text = 1 := by simp [readiness, hready]
      simp only [Settled, assembleFrameAndSend, hone, haddr, hanswered, forall_true_left]
      refine forall₂_congr fun m _ => ?_
      rcases eq_or_ne m.addr asker with hself | hother
      · simp [hself]
      · simp [hother]
    · have hzero : readiness text = 0 := by simp [readiness, hready]
      refine iff_of_true ?_ ?_
      · intro hone
        simp [assembleFrameAndSend, hzero] at hone
      · rintro ⟨-, text', htext', hready'⟩
        rw [htext] at htext'
        exact absurd (Option.some.inj htext' ▸ hready') hready

theorem settled_step_iff (h : Inv s) (hs : Settled s) (hstep : Step s e s') :
    Settled s' ↔ KeepsAgreed s e := by
  obtain ⟨-, hok⟩ := hstep
  cases e with
  | loop l =>
      obtain ⟨loop', hloop, hok⟩ := bind_eq_ok.mp hok
      obtain rfl := Except.ok.inj hok
      exact iff_of_true (settled_loop h hs hloop) trivial
  | inquirySystemState asker reply =>
      obtain ⟨n, hn, hok⟩ := bind_eq_ok.mp hok
      exact settled_inquiry_iff hs hn hok
  | systemStateException stat =>
      refine iff_of_true ?_ trivial
      obtain ⟨text, -, ⟨-, -, rfl⟩ | ⟨-, rfl⟩⟩ := processException_eq_ok hok
      · exact hs
      · intro hone n hn hzero
        have hagreed : AgreedOn (readiness text)
            (sendToAll (readiness text) { s with systemReady := readiness text }) :=
          agreedOn_sendToAll rfl
        have hsame := (hagreed.heard n hn 0 hzero).trans (hagreed.systemReady.symm.trans hone)
        cases hsame

theorem inv_started (hs : Started s) : Inv s ∧ Settled s := by
  refine ⟨⟨numbered_started hs.loop, .inl hs.systemReady, fun addr v hv => ?_,
    fun addr _ => hs.heard addr⟩, fun hone => ?_⟩
  · rw [hs.heard addr] at hv
    cases hv
  · rw [hs.systemReady] at hone
    cases hone

end Steps

/-- Over a run every report leaves, and would leave, the sessions agreed exactly if
every event meets the condition. -/
theorem reports_agree_iff {s₀ s : State} {trs : List (Transition State Event)}
    (hs : Started s₀) (h : Run Step s₀ trs s) :
    ReportAgrees s₀ ∧
      ((∀ tr ∈ trs, ReportAgrees tr.after ∧
          ∀ stat, tr.label = .systemStateException (some stat) →
            AgreedOn (readiness stat) tr.after) ↔
        ∀ tr ∈ trs, KeepsAgreed tr.before tr.label) := by
  have hstart := inv_started hs
  have hkeep : ∀ a e b, Inv a ∧ Settled a → KeepsAgreed a e → Step a e b →
      (Inv b ∧ Settled b) ∧ ReportAgrees b ∧
        ∀ stat, e = .systemStateException (some stat) → AgreedOn (readiness stat) b := by
    rintro a e b ⟨ha, hsettled⟩ hguard hstep
    have hb := ha.step hstep
    have hsettled' := (settled_step_iff ha hsettled hstep).mpr hguard
    refine ⟨⟨hb, hsettled'⟩, (reportAgrees_iff hb).mpr hsettled', ?_⟩
    rintro stat rfl
    exact (reportAgrees_iff ha).mpr hsettled stat b hstep.2
  have hbreak : ∀ a e b, Inv a ∧ Settled a → ¬ KeepsAgreed a e → Step a e b →
      ¬ (ReportAgrees b ∧
        ∀ stat, e = .systemStateException (some stat) → AgreedOn (readiness stat) b) := by
    rintro a e b ⟨ha, hsettled⟩ hguard hstep ⟨hagrees, -⟩
    exact hguard ((settled_step_iff ha hsettled hstep).mp
      ((reportAgrees_iff (ha.step hstep)).mp hagrees))
  exact ⟨(reportAgrees_iff hstart.1).mpr hstart.2, h.forall_good_iff hkeep hbreak hstart⟩

def startState (openJson closeJson : ControlJson) : State :=
  { loop := EventProcess.startState openJson closeJson, systemReady := 0, heard := fun _ => none }

theorem startState_started (openJson closeJson : ControlJson) :
    Started (startState openJson closeJson) :=
  ⟨EventProcess.startState_started openJson closeJson, rfl, fun _ => rfl⟩

def statReply (stat : String) : TransferReply := { ret := 0, statBufLen := 16, stat := some stat }

/-- Both pages are told not ready by a report, and ready by the next one. -/
theorem reports_agree_two_pages :
    ∃ trs s, Run Step (startState ⟨"dev", "1"⟩ ⟨"dev", "0"⟩) trs s ∧
      s.heard 0 = some 1 ∧ s.heard 1 = some 1 ∧
      ∀ tr ∈ trs, ReportAgrees tr.after ∧
        ∀ stat, tr.label = .systemStateException (some stat) →
          AgreedOn (readiness stat) tr.after := by
  obtain ⟨trs, s, hs, hfirst, hsecond⟩ :
      ∃ trs s, replay (attempt (fun s e => KeepsAgreed s e ∧ Possible s e) execute)
          (startState ⟨"dev", "1"⟩ ⟨"dev", "0"⟩)
          [.loop ⟨.acceptNewUser 7, .success⟩, .inquirySystemState 0 (statReply "0x20"),
            .loop ⟨.acceptNewUser 8, .success⟩, .systemStateException (some "0x10"),
            .systemStateException (some "0x80000020")] = some (trs, s) ∧
        s.heard 0 = some 1 ∧ s.heard 1 = some 1 := ⟨_, _, rfl, rfl, rfl⟩
  obtain ⟨hrun, hguard⟩ := run_of_guarded_attempts hs
  exact ⟨trs, s, hrun, hfirst, hsecond,
    (reports_agree_iff (startState_started _ _) hrun).2.mpr hguard⟩

/-- Connection 7 is answered that the device is not ready, connection 8 that it is.
The report that it is ready is not sent then, and connection 7 is left behind. -/
theorem ready_report_suppressed :
    ∃ trs s s', Run Step (startState ⟨"dev", "1"⟩ ⟨"dev", "0"⟩) trs s ∧
      Step s (.systemStateException (some "0x20")) s' ∧
      s'.systemReady = 1 ∧ connected s'.loop.server = [0, 1] ∧ s'.heard 0 = some 0 ∧
      s'.heard 1 = some 1 ∧ ¬ AgreedOn (readiness "0x20") s' := by
  obtain ⟨trs, s, s', hs, hreport, hready, hconnected, hfirst, hsecond⟩ :
      ∃ trs s s', replay (attempt Possible execute) (startState ⟨"dev", "1"⟩ ⟨"dev", "0"⟩)
          [.loop ⟨.acceptNewUser 7, .success⟩, .loop ⟨.acceptNewUser 8, .success⟩,
            .inquirySystemState 0 (statReply "0x10"),
            .inquirySystemState 1 (statReply "0x20")] = some (trs, s) ∧
        attempt Possible execute s (.systemStateException (some "0x20")) = some s' ∧
        s'.systemReady = 1 ∧ connected s'.loop.server = [0, 1] ∧ s'.heard 0 = some 0 ∧
        s'.heard 1 = some 1 := ⟨_, _, _, rfl, rfl, rfl, rfl, rfl, rfl⟩
  refine ⟨trs, s, s', run_of_attempts hs, executes_of_attempt _ _ _ hreport, hready, hconnected,
    hfirst, hsecond, fun hagreed => ?_⟩
  have hin : 0 ∈ connected s'.loop.server := by simp [hconnected]
  obtain ⟨n, hn, haddr⟩ := List.mem_map.mp hin
  have hone := hagreed.heard n hn 0 (haddr ▸ hfirst)
  simp [readiness, StatReady] at hone

end GwWeb.SystemState
