import GwWeb.PageFrames

/-!
The event loop keeps to the service: what each page is sent, over every run.
-/

namespace GwWeb.PageRefinement

open MirroredRoster
open OutputMachines
open TransitionRuns
open GwWeb.WebCommon
open GwWeb.Server
open GwWeb.MosquittoBroker
open GwWeb.DmaHandler
open GwWeb.EventProcess
open GwWeb.UserBook
open GwWeb.BookRefinement
open GwWeb.BookRuns
open GwWeb.CsiDisplay
open GwWeb.ConstellationDecoding
open GwWeb.DisplayPages
open GwWeb.BookPages
open GwWeb.PageFrames

/-- The requests that concern neither display. -/
inductive Other where
  | controlRssi
  | saveCsi
  | command (c : Command)
  deriving DecidableEq

/-- What a page gets of CSI. -/
abbrev CsiArrays (F : Type*) := (Fin 256 → F) × (Fin 256 → F)

abbrev PageInput (F : Type*) := Input Int Other (CsiArrays F) (List (Int × Int))

abbrev PageOutput (F : Type*) := Output Other (CsiArrays F) (List (Int × Int))

variable {F : Type*} (ops : FloatOps F) (fftwfExecute : (Fin 256 → F × F) → Fin 256 → F × F)

/-- What a message of the loop is to the service. -/
def inputsOfEvent (s : PageState F) (l : EventProcess.Label) : List (PageInput F) :=
  match l.event with
  | .delDisconnectUser connfd => [.leave connfd]
  | .openwrtConnected =>
      if s.loop.server.openwrtLink = 0 then []
      else if l.replies.eventfdWrite = -1 then [.leave s.loop.server.openwrtConnfd]
      else []
  | .controlRssi connfd json =>
      match processRssiSaveFile connfd json l.replies.save s.loop.broker with
      | .ok (ret, _) => [.ask connfd (.other .controlRssi) (decide (ret = 0))]
      | .error _ => []
  | .startCsi connfd => [.ask connfd .startCsi (decide (l.replies.start.start = 0))]
  | .stopCsi connfd => [.ask connfd .stopCsi true]
  | .csiReady json =>
      if json.length ≠ 1024 then []
      else [.csiSample (displayed (spectrumBehind ops fftwfExecute l.event s.csiSpectrum))]
  | .startConstellation connfd => [.ask connfd .startConstell true]
  | .stopConstellation connfd => [.ask connfd .stopConstell true]
  | .controlSaveIqData connfd _ => [.ask connfd (.other .saveCsi) true]
  | _ => []

/-- What a message means to the service. -/
def inputs (s : PageState F) : PageLabel → List (PageInput F)
  | .event l => inputsOfEvent ops fftwfExecute s l
  | .constellationReady buf =>
      match ConstellationDecoding.processConstellation buf s.consIqPair with
      | some (_, g) => [.constellSample (iqArray g)]
      | none => []
  | .command connfd c => [.ask connfd (.other (.command c)) true]

/-- The entry of `record_str` that an answer carries. -/
def recordOf : Request Other → Verdict → Record
  | .startCsi, .excluded => .startCsiMutex
  | .startCsi, _ => .startCsiSucc
  | .stopCsi, _ => .stopCsiSucc
  | .startConstell, .excluded => .startConstellMutex
  | .startConstell, _ => .startConstellSucc
  | .stopConstell, _ => .stopCsiSucc
  | .other .controlRssi, _ => .constrolRssiSucc
  | .other .saveCsi, _ => .csiSaveSucc
  | .other (.command c), _ => c.record

/-- The state that an answer carries. -/
def cmdStateOf : Request Other → Verdict → Int
  | _, .done => CMD_OK
  | _, .refused => CMD_FAIL
  | .startConstell, .excluded => CONSTELL_MUTEX
  | _, .excluded => CSI_MUTEX

/-- An output of the service as a frame. -/
def frameOf : PageOutput F → Frame F
  | .answer r v => .cmdState (cmdStateOf r v) (initRecordStr (recordOf r v))
  | .csi x => .csiData x.1 x.2
  | .constell x => .constellData x

/-- The service as one connection sees it. -/
def pageService (F : Type*) (connfd : Int) :
    Machine (Pages Int) (PageInput F) (PageOutput F) :=
  service Other (CsiArrays F) (List (Int × Int)) connfd

/-- The state stands for these pages, and the device is open. -/
def ShowsPages (s : PageState F) (p : Pages Int) : Prop :=
  Shows (book s.loop) p ∧ s.loop.dma.pAxidma = true

variable {ops fftwfExecute} {s s' : PageState F} {p : Pages Int} {connfd : Int}

theorem step_of_handle {l : EventProcess.Label}
    (h : PageStep ops fftwfExecute s (.event l) s') :
    EventProcess.Step s.loop l s'.loop := by
  simp only [PageStep, handle] at h
  split at h
  · cases h
  · obtain ⟨loop, hloop, rfl⟩ := Option.map_eq_some_iff.mp h
    exact step_of_survive s.loop l loop hloop

theorem listed_of_step {l : EventProcess.Label} {loop : EventProcess.State}
    (h : EventProcess.Step s.loop l loop) {c : Int} (hc : l.event.session? = some c) :
    c ∈ (book s.loop).sessions.map Session.connfd := by
  rw [sessions_connfd]
  exact h.1 c hc

/-- The state stands for the pages behind the inputs. -/
theorem shows_event {l : EventProcess.Label} (connfd : Int) (h : ShowsPages s p)
    (hstep : PageStep ops fftwfExecute s (.event l) s') :
    ShowsPages s' ((pageService F connfd).after p (inputs ops fftwfExecute s (.event l))) := by
  have hloop := step_of_handle hstep
  obtain ⟨hbook, hconst⟩ := eventLoop_book h.2 hloop
  refine ⟨?_, (congrArg (fun c => c.2.1) hconst).trans h.2⟩
  rw [hbook]
  rcases l with ⟨event, r⟩
  cases event with
  | acceptNewUser c => exact h.1.enter c
  | delDisconnectUser c => exact h.1.leave c _
  | openwrtConnected =>
      simp only [actions, inputs, inputsOfEvent]
      split
      · exact h.1
      · split
        · exact (h.1.enter _).leave _ _
        · exact h.1.enter _
  | inquiryRssi c => exact h.1.openRssi (listed_of_step hloop rfl) _
  | controlRssi c json =>
      simp only [actions, inputs, inputsOfEvent]
      split <;> exact h.1
  | startCsi c => exact h.1.startCsi (listed_of_step hloop rfl) r.start
  | stopCsi c => exact h.1.stopCsi c
  | csiReady json =>
      simp only [actions, inputs, inputsOfEvent]
      split <;> exact h.1
  | startConstellation c => exact h.1.startConstell (listed_of_step hloop rfl) _
  | stopConstellation c => exact h.1.stopConstell c
  | _ => exact h.1

theorem startSave_code (node : Nat) (t : WriteFile) (name : String) (r : SaveReplies)
    (w : WriteComponent) : (startSave node t name r w).1 ≤ 0 := by
  have hrefused : (-1 : Int) ≤ 0 := by decide
  unfold startSave
  split
  · split
    · exact le_refl 0
    · exact hrefused
  · exact hrefused

theorem saveCommand_code {already ret : Int} {node : Nat} {root : CJson} {r : SaveReplies}
    {w w' : WriteComponent} (halready : already ≤ 0)
    (h : saveCommand already node root r w = .ok (ret, w')) : ret ≤ 0 := by
  obtain ⟨opCmd, -, h⟩ := bind_eq_ok.mp h
  split at h
  · cases h
  · rename_i t _
    split at h
    · split at h
      · obtain ⟨rfl, -⟩ := Prod.mk.inj (Except.ok.inj h)
        exact halready
      · obtain ⟨w₁, -, h⟩ := bind_eq_ok.mp h
        obtain ⟨rfl, -⟩ := Prod.mk.inj (Except.ok.inj h)
        exact le_refl 0
    · split at h
      · split at h
        · obtain ⟨rfl, -⟩ := Prod.mk.inj (Except.ok.inj h)
          exact halready
        · obtain ⟨name, -, h⟩ := bind_eq_ok.mp h
          have hret : (startSave node t name r w).1 = ret := congrArg Prod.fst (Except.ok.inj h)
          exact hret ▸ startSave_code node t name r w
      · obtain ⟨rfl, -⟩ := Prod.mk.inj (Except.ok.inj h)
        exact le_refl 0

theorem processRssiSaveFile_code {c ret : Int} {root : CJson} {r : SaveReplies}
    {g g' : GBrokerPara} (h : processRssiSaveFile c root r g = .ok (ret, g')) : ret ≤ 0 := by
  obtain ⟨type, -, h⟩ := bind_eq_ok.mp h
  split at h
  · obtain ⟨rfl, -⟩ := Prod.mk.inj (Except.ok.inj h)
    decide
  · split at h
    · obtain ⟨rfl, -⟩ := Prod.mk.inj (Except.ok.inj h)
      decide
    · obtain ⟨⟨ret', save⟩, hsave, h⟩ := bind_eq_ok.mp h
      obtain ⟨rfl, -⟩ := Prod.mk.inj (Except.ok.inj h)
      exact saveCommand_code (by decide) hsave

theorem sendCmdState_code {ret : Int} (h : ret ≤ 0) (c : Int) (record : Record) :
    (sendCmdState c ret record : Int × Frame F) =
      (c, .cmdState (if ret = 0 then CMD_OK else CMD_FAIL) (initRecordStr record)) := by
  have htwo : ret ≠ CSI_MUTEX := by
    unfold CSI_MUTEX
    omega
  have hthree : ret ≠ CONSTELL_MUTEX := by
    unfold CONSTELL_MUTEX
    omega
  simp only [sendCmdState, if_neg htwo, if_neg hthree]
  rfl

section Display

variable {nodes : List UserNode} {server : GServerPara} {frame : Frame F}

theorem sendDisplay_eq (h : ∀ n ∈ nodes, n.connfd ∈ sessionConnfds server) :
    sendDisplay nodes server frame = nodes.map fun n => (n.connfd, frame) := by
  unfold sendDisplay
  rw [← List.filterMap_eq_map]
  apply List.filterMap_congr
  intro n hn
  obtain ⟨m, hm, hconnfd⟩ := List.mem_map.mp (h n hn)
  obtain ⟨found, hfound⟩ := Option.isSome_iff_exists.mp
    (List.find?_isSome (p := fun m : UserSessionNode => decide (m.connfd = n.connfd)).mpr
      ⟨m, hm, by simpa using hconnfd⟩)
  have hkey : found.connfd = n.connfd := by simpa using List.find?_some hfound
  simp only [findUserNodeByConnfd, hfound, Option.map_some, hkey, Function.comp_apply]

theorem toConnection_sendDisplay (hnodup : (nodes.map UserNode.connfd).Nodup)
    (h : ∀ n ∈ nodes, n.connfd ∈ sessionConnfds server) (c : Int) :
    toConnection c (sendDisplay nodes server frame) =
      if c ∈ nodes.map UserNode.connfd then [frame] else [] := by
  rw [sendDisplay_eq h]
  clear h
  induction nodes with
  | nil => rfl
  | cons n ns ih =>
      obtain ⟨hn, hns⟩ := List.nodup_cons.mp hnodup
      have hrest := ih hns
      simp only [toConnection, List.map_cons, List.filterMap_cons, List.mem_cons] at hrest ⊢
      rcases eq_or_ne n.connfd c with heq | hne
      · subst heq
        rw [if_neg hn] at hrest
        simp [hrest]
      · simp [hne, Ne.symm hne, hrest]

end Display

theorem toConnection_single (c d : Int) (frame : Frame F) :
    toConnection c [(d, frame)] = if d = c then [frame] else [] := by
  unfold toConnection
  split <;> simp_all

theorem toConnection_answer {r : Request Other} {agreed : Bool} {frame : Frame F}
    (h : frame = frameOf (.answer r (p.verdict agreed r))) (d : Int) :
    toConnection connfd [(d, frame)] =
      ((pageService F connfd).outputs p [.ask d r agreed]).map frameOf := by
  rw [toConnection_single, h]
  show _ = ((if d = connfd then _ else []) ++ []).map frameOf
  split <;> rfl

theorem toConnection_csi (h : Shows (book s.loop) p) (x : CsiArrays F) :
    toConnection connfd
        (sendDisplay s.loop.dma.csiUserNodeHead s.loop.server (.csiData x.1 x.2)) =
      ((pageService F connfd).outputs p [.csiSample x]).map frameOf := by
  have hnodup := (h.kept.mirrors .csi (by decide)).nodup
  have hlisted : ∀ n ∈ s.loop.dma.csiUserNodeHead,
      n.connfd ∈ sessionConnfds s.loop.server := by
    intro n hn
    obtain ⟨session, hsession, hconnfd, -⟩ :=
      (h.csi_flag n.connfd).mp ((h.csi n.connfd).mpr (List.mem_map_of_mem hn))
    rw [← sessions_connfd]
    exact List.mem_map.mpr ⟨session, hsession, hconnfd⟩
  rw [toConnection_sendDisplay hnodup hlisted]
  show _ = ((if connfd ∈ p.csi then _ else []) ++ []).map frameOf
  have hcsi : connfd ∈ p.csi ↔ connfd ∈ s.loop.dma.csiUserNodeHead.map UserNode.connfd :=
    h.csi connfd
  simp only [hcsi]
  split <;> rfl

theorem toConnection_constell (h : Shows (book s.loop) p) (x : List (Int × Int)) :
    toConnection connfd
        (sendDisplay s.loop.dma.constellUserNodeHead s.loop.server (.constellData x)) =
      ((pageService F connfd).outputs p [.constellSample x]).map frameOf := by
  have hnodup := (h.kept.mirrors .constell (by decide)).nodup
  have hlisted : ∀ n ∈ s.loop.dma.constellUserNodeHead,
      n.connfd ∈ sessionConnfds s.loop.server := by
    intro n hn
    obtain ⟨session, hsession, hconnfd, -⟩ :=
      (h.constell_flag n.connfd).mp ((h.constell n.connfd).mpr (List.mem_map_of_mem hn))
    rw [← sessions_connfd]
    exact List.mem_map.mpr ⟨session, hsession, hconnfd⟩
  rw [toConnection_sendDisplay hnodup hlisted]
  show _ = ((if connfd ∈ p.constell then _ else []) ++ []).map frameOf
  have hconstell :
      connfd ∈ p.constell ↔ connfd ∈ s.loop.dma.constellUserNodeHead.map UserNode.connfd :=
    h.constell connfd
  simp only [hconstell]
  split <;> rfl

theorem startCsi_frame (h : ShowsPages s p) (c : Int) (r : Replies) :
    sentByEvent ops fftwfExecute s ⟨.startCsi c, r⟩ =
      [(c, frameOf (.answer .startCsi
        (p.verdict (decide (r.start.start = 0)) (.startCsi : Request Other))))] := by
  have hbusy : checkConstellWorking s.loop.server = 1 ↔ p.constell ≠ ∅ := by
    rw [checkConstellWorking_iff, ne_eq, h.1.constell_eq_empty_iff, not_not]
  have hrefuses := h.1.refuses_iff (r := r.start)
  have hservice := startCsiStateExternal_service c r.start h.2
  simp only [sentByEvent, hbusy, Pages.verdict]
  by_cases hconstell : p.constell ≠ ∅
  · rw [if_pos hconstell, if_pos hconstell]
    rfl
  · rw [if_neg hconstell, if_neg hconstell]
    by_cases haccepted : (p.running || decide (r.start.start = 0)) = true
    · have hret := (if_neg (mt hrefuses.mp (not_not.mpr haccepted)) ▸ hservice).1
      rw [if_pos haccepted, hret]
      rfl
    · have hret := (if_pos (hrefuses.mpr haccepted) ▸ hservice).1
      rw [if_neg haccepted, hret]
      rfl

theorem startConstell_frame (h : ShowsPages s p) (c : Int) (r : Replies) :
    sentByEvent ops fftwfExecute s ⟨.startConstellation c, r⟩ =
      [(c, frameOf (.answer .startConstell
        (p.verdict true (.startConstell : Request Other))))] := by
  have hbusy : checkCsiWorking s.loop.server = 1 ↔ p.csi ≠ ∅ := by
    rw [checkCsiWorking_iff, ne_eq, h.1.csi_eq_empty_iff, not_not]
  simp only [sentByEvent, hbusy, Pages.verdict]
  by_cases hcsi : p.csi ≠ ∅
  · rw [if_pos hcsi, if_pos hcsi]
    rfl
  · rw [if_neg hcsi, if_neg hcsi]
    rfl

theorem sent_event {l : EventProcess.Label} (h : ShowsPages s p) :
    toConnection connfd (sent ops fftwfExecute s (.event l)) =
      ((pageService F connfd).outputs p (inputs ops fftwfExecute s (.event l))).map frameOf := by
  rcases l with ⟨event, r⟩
  cases event with
  | openwrtConnected =>
      simp only [sent, sentByEvent, inputs, inputsOfEvent]
      split
      · rfl
      · split <;> rfl
  | controlRssi c json =>
      simp only [sent, sentByEvent, inputs, inputsOfEvent]
      cases hsave : processRssiSaveFile c json r.save s.loop.broker with
      | error fault => rfl
      | ok out =>
          simp only
          rw [sendCmdState_code (processRssiSaveFile_code hsave)]
          apply toConnection_answer
          simp only [Pages.verdict, decide_eq_true_eq]
          split <;> rfl
  | startCsi c =>
      simp only [sent, startCsi_frame h]
      exact toConnection_answer rfl c
  | stopCsi c =>
      refine toConnection_answer ?_ c
      rfl
  | csiReady json =>
      simp only [sent, sentByEvent, inputs, inputsOfEvent]
      split
      · rfl
      · exact toConnection_csi h.1 _
  | startConstellation c =>
      simp only [sent, startConstell_frame h]
      exact toConnection_answer rfl c
  | stopConstellation c =>
      refine toConnection_answer ?_ c
      rfl
  | controlSaveIqData c json =>
      refine toConnection_answer ?_ c
      rfl
  | _ => rfl

theorem follows_service (connfd : Int) :
    ((pageService F connfd).watch fun o => some (frameOf o)).Follows (PageStep ops fftwfExecute)
      (fun _ _ => True) ShowsPages (inputs ops fftwfExecute)
      (fun s l => toConnection connfd (sent ops fftwfExecute s l)) := by
  intro s l s' p h _ hstep
  rw [Machine.watch_outputs, List.filterMap_eq_map']
  cases l with
  | event l => exact ⟨shows_event connfd h hstep, sent_event h⟩
  | constellationReady buf =>
      obtain ⟨out, hout, rfl⟩ := Option.map_eq_some_iff.mp hstep
      simp only [sent, inputs, hout]
      exact ⟨h, toConnection_constell h.1 _⟩
  | command c command =>
      simp only [PageStep, handle] at hstep
      split at hstep
      · obtain rfl := Option.some.inj hstep
        refine ⟨h, toConnection_answer ?_ c⟩
        rfl
      · cases hstep

variable (ops fftwfExecute) in
/-- The frames a run sends to a connection, in order. -/
def framesTo (connfd : Int) (trs : List (Transition (PageState F) PageLabel)) : List (Frame F) :=
  toConnection connfd (along (sent ops fftwfExecute) trs)

variable (ops fftwfExecute) in
/-- What a run means to the service. -/
def asked (trs : List (Transition (PageState F) PageLabel)) : List (PageInput F) :=
  along (inputs ops fftwfExecute) trs

/-- The session of the connection has the flag. -/
def Flagged (flag : RecordAction → Int) (connfd : Int) (s : PageState F) : Prop :=
  ∃ n ∈ s.loop.server.userSessionNodeHead, n.connfd = connfd ∧ flag n.recordAction = 1

theorem shows_started (hs : Started s.loop) : ShowsPages s Pages.closed := by
  obtain ⟨hempty, hp, -⟩ := started_book hs
  refine ⟨?_, hp⟩
  rw [hempty]
  exact shows_empty

theorem toConnection_along (connfd : Int) (trs : List (Transition (PageState F) PageLabel)) :
    along (fun s l => toConnection connfd (sent ops fftwfExecute s l)) trs =
      framesTo ops fftwfExecute connfd trs := by
  unfold along framesTo toConnection
  rw [along, List.filterMap_flatMap]

/-- From any state that stands for pages, the frames of a run are those the service sends. -/
theorem framesTo_run {trs : List (Transition (PageState F) PageLabel)} (h : ShowsPages s p)
    (hrun : Run (PageStep ops fftwfExecute) s trs s') (connfd : Int) :
    ShowsPages s' ((pageService F connfd).after p (asked ops fftwfExecute trs)) ∧
      framesTo ops fftwfExecute connfd trs =
        ((pageService F connfd).outputs p (asked ops fftwfExecute trs)).map frameOf := by
  have hfollows := (follows_service connfd).run hrun (fun _ _ => trivial) h
  rw [toConnection_along, Machine.watch_outputs, List.filterMap_eq_map'] at hfollows
  exact hfollows

theorem flagged_csi (h : ShowsPages s p) (connfd : Int) :
    connfd ∈ p.csi ↔ Flagged RecordAction.enableStartCsi connfd s := by
  rw [h.1.csi_flag]
  simp only [book, List.mem_map, exists_exists_and_eq_and]
  rfl

theorem flagged_constell (h : ShowsPages s p) (connfd : Int) :
    connfd ∈ p.constell ↔ Flagged RecordAction.enableStartConstell connfd s := by
  rw [h.1.constell_flag]
  simp only [book, List.mem_map, exists_exists_and_eq_and]
  rfl

/-- Over every run each connection is sent what the service to the pages would send it,
in order, and the flags of the sessions are the displays that the pages have open. -/
theorem frames_of_service {trs : List (Transition (PageState F) PageLabel)}
    (hs : Started s.loop) (h : Run (PageStep ops fftwfExecute) s trs s') (connfd : Int) :
    framesTo ops fftwfExecute connfd trs =
        ((pageService F connfd).outputs Pages.closed (asked ops fftwfExecute trs)).map frameOf ∧
      let pages := (asked ops fftwfExecute trs).foldl Pages.next Pages.closed
      ∀ c, (c ∈ pages.csi ↔ Flagged RecordAction.enableStartCsi c s') ∧
        (c ∈ pages.constell ↔ Flagged RecordAction.enableStartConstell c s') := by
  obtain ⟨hpages, hframes⟩ := framesTo_run (shows_started hs) h connfd
  exact ⟨hframes, fun c => ⟨flagged_csi hpages c, flagged_constell hpages c⟩⟩

/-- The connection leaves, or asks for a display to be started or stopped. -/
def Moves (connfd : Int) (s : PageState F) : PageLabel → Prop
  | .event l =>
      match l.event with
      | .delDisconnectUser c => c = connfd
      | .startCsi c => c = connfd
      | .stopCsi c => c = connfd
      | .startConstellation c => c = connfd
      | .stopConstellation c => c = connfd
      | .openwrtConnected =>
          s.loop.server.openwrtLink ≠ 0 ∧ l.replies.eventfdWrite = -1 ∧
            s.loop.server.openwrtConnfd = connfd
      | _ => False
  | _ => False

variable (ops fftwfExecute) in
/-- What a message has to be displayed of CSI. -/
def csiDisplay (s : PageState F) : PageLabel → List (Frame F)
  | .event l =>
      match l.event with
      | .csiReady json =>
          if json.length ≠ 1024 then []
          else [csiDataResponse (spectrumBehind ops fftwfExecute l.event s.csiSpectrum)]
      | _ => []
  | _ => []

/-- The display that a message with constellation samples makes. -/
def constellDisplay (s : PageState F) : PageLabel → List (Frame F)
  | .constellationReady buf =>
      match ConstellationDecoding.processConstellation buf s.consIqPair with
      | some (_, g) => [.constellData (iqArray g)]
      | none => []
  | _ => []

theorem displays_eq (s : PageState F) (l : PageLabel) :
    csiDisplay ops fftwfExecute s l =
        ((inputs ops fftwfExecute s l).flatMap View.csi.samples).map frameOf ∧
      constellDisplay s l =
        ((inputs ops fftwfExecute s l).flatMap View.constell.samples).map frameOf := by
  cases l with
  | event l =>
      rcases l with ⟨event, r⟩
      simp only [csiDisplay, constellDisplay, inputs, inputsOfEvent]
      cases event with
      | openwrtConnected =>
          simp only
          split
          · exact ⟨rfl, rfl⟩
          · split <;> exact ⟨rfl, rfl⟩
      | controlRssi c json =>
          simp only
          split <;> exact ⟨rfl, rfl⟩
      | csiReady json =>
          simp only
          split <;> exact ⟨rfl, rfl⟩
      | _ => exact ⟨rfl, rfl⟩
  | constellationReady buf =>
      simp only [csiDisplay, constellDisplay, inputs]
      split <;> exact ⟨rfl, rfl⟩
  | command c command => exact ⟨rfl, rfl⟩

theorem along_displays {display : PageState F → PageLabel → List (Frame F)} {v : View}
    (h : ∀ s l, display s l = ((inputs ops fftwfExecute s l).flatMap v.samples).map frameOf)
    (trs : List (Transition (PageState F) PageLabel)) :
    along display trs = ((asked ops fftwfExecute trs).flatMap v.samples).map frameOf := by
  unfold along asked
  rw [along, List.flatMap_assoc, List.map_flatMap]
  simp only [h]

theorem not_moves_inputs {l : PageLabel} (h : ¬ Moves connfd s l) :
    ∀ i ∈ inputs ops fftwfExecute s l, ¬ i.Moves connfd := by
  intro i hi
  cases l with
  | event l =>
      rcases l with ⟨event, r⟩
      cases event with
      | openwrtConnected =>
          simp only [inputs, inputsOfEvent] at hi
          split at hi
          · cases hi
          · rename_i hlink
            split at hi
            · rename_i heventfd
              obtain rfl := List.mem_singleton.mp hi
              exact fun hc => h ⟨hlink, heventfd, hc⟩
            · cases hi
      | controlRssi c json =>
          simp only [inputs, inputsOfEvent] at hi
          split at hi
          · obtain rfl := List.mem_singleton.mp hi
            exact id
          · cases hi
      | csiReady json =>
          simp only [inputs, inputsOfEvent] at hi
          split at hi
          · cases hi
          · obtain rfl := List.mem_singleton.mp hi
            exact id
      | delDisconnectUser c | startCsi c | stopCsi c | startConstellation c
      | stopConstellation c =>
          obtain rfl := List.mem_singleton.mp hi
          exact h
      | controlSaveIqData c json =>
          obtain rfl := List.mem_singleton.mp hi
          exact id
      | _ => cases hi
  | constellationReady buf =>
      simp only [inputs] at hi
      split at hi
      · obtain rfl := List.mem_singleton.mp hi
        exact id
      · cases hi
  | command c command =>
      obtain rfl := List.mem_singleton.mp hi
      exact id

theorem filter_isDisplay (outs : List (PageOutput F)) :
    (outs.map frameOf).filter Frame.isDisplay = (outs.filterMap Output.sample?).map frameOf := by
  induction outs with
  | nil => rfl
  | cons o outs ih =>
      cases o with
      | answer r v => exact ih
      | csi x => exact congrArg (frameOf (.csi x) :: ·) ih
      | constell x => exact congrArg (frameOf (.constell x) :: ·) ih

/-- While a connection asks for no display and does not leave, it is sent each display
of the kind that it has open, once and in order, and no other; and it keeps its view,
whatever the other connections do. -/
theorem displays_of_view {trs trs' : List (Transition (PageState F) PageLabel)}
    {s₀ s s' : PageState F} (hs : Started s₀.loop)
    (h : Run (PageStep ops fftwfExecute) s₀ trs s) (h' : Run (PageStep ops fftwfExecute) s trs' s')
    {connfd : Int} (hstill : ∀ tr ∈ trs', ¬ Moves connfd tr.before tr.label) :
    let shown := (framesTo ops fftwfExecute connfd trs').filter Frame.isDisplay
    (Flagged RecordAction.enableStartCsi connfd s →
        shown = along (csiDisplay ops fftwfExecute) trs') ∧
      (Flagged RecordAction.enableStartConstell connfd s →
        shown = along constellDisplay trs') ∧
      (¬ Flagged RecordAction.enableStartCsi connfd s →
        ¬ Flagged RecordAction.enableStartConstell connfd s → shown = []) ∧
      (Flagged RecordAction.enableStartCsi connfd s' ↔
        Flagged RecordAction.enableStartCsi connfd s) ∧
      (Flagged RecordAction.enableStartConstell connfd s' ↔
        Flagged RecordAction.enableStartConstell connfd s) := by
  obtain ⟨hpages, -⟩ := framesTo_run (shows_started hs) h connfd
  obtain ⟨hpages', hframes⟩ := framesTo_run hpages h' connfd
  set p := (pageService F connfd).after Pages.closed (asked ops fftwfExecute trs)
  have hasked : ∀ i ∈ asked ops fftwfExecute trs', ¬ i.Moves connfd := by
    intro i hi
    obtain ⟨tr, htr, hi⟩ := List.mem_flatMap.mp hi
    exact not_moves_inputs (hstill tr htr) i hi
  obtain ⟨hview, hsamples⟩ := samples_outputs (p := p) hasked
  have hshown : (framesTo ops fftwfExecute connfd trs').filter Frame.isDisplay =
      ((asked ops fftwfExecute trs').flatMap (p.view connfd).samples).map frameOf := by
    rw [hframes, filter_isDisplay]
    exact congrArg (List.map frameOf) hsamples
  have hsame : ∀ v : View,
      ((pageService F connfd).after p (asked ops fftwfExecute trs')).view connfd = v ↔
        p.view connfd = v := by
    intro v
    exact iff_of_eq (congrArg (· = v) hview)
  rw [← flagged_csi hpages, ← flagged_constell hpages, ← flagged_csi hpages',
    ← flagged_constell hpages', ← Pages.view_csi_iff, ← Pages.view_constell_iff,
    ← Pages.view_csi_iff, ← Pages.view_constell_iff]
  refine ⟨?_, ?_, ?_, hsame _, hsame _⟩
  · intro hcsi
    rw [along_displays (fun s l => (displays_eq s l).1), ← hcsi]
    exact hshown
  · intro hconstell
    rw [along_displays fun s l => (@displays_eq F ops fftwfExecute s l).2, ← hconstell]
    exact hshown
  · intro hcsi hconstell
    have hnothing : p.view connfd = .nothing := by
      cases hv : p.view connfd with
      | nothing => rfl
      | csi => exact absurd hv hcsi
      | constell => exact absurd hv hconstell
    rw [hshown, hnothing, List.map_eq_nil_iff, List.flatMap_eq_nil_iff]
    intro i _
    cases i <;> rfl

noncomputable def pagesStart : PageState ℝ :=
  { loop := startState ⟨"dev", "1"⟩ ⟨"dev", "0"⟩
    csiSpectrum := { outFft := fun _ => (0, 0), inIQ := fun _ => (0, 0), spectrum := fun _ => 0,
                     dbArray := fun _ => 0, timeIQ := fun _ => 0 }
    consIqPair := noPairs }

/-- Connection 8 asks for the constellation while 7 has CSI open. -/
theorem frames_of_service_excluded :
    ∃ trs s, replay (handle realOps dft) pagesStart
        [.event ⟨.acceptNewUser 7, .success⟩, .event ⟨.acceptNewUser 8, .success⟩,
          .event ⟨.startCsi 7, .success⟩, .event ⟨.startConstellation 8, .success⟩,
          .command 8 .openDac] = some (trs, s) ∧
      framesTo realOps dft 8 trs =
        [.cmdState 3 "start constelltion confict with csi", .cmdState 0 "open dac success"] ∧
      framesTo realOps dft 8 trs =
        ((pageService ℝ 8).outputs Pages.closed (asked realOps dft trs)).map frameOf := by
  obtain ⟨trs, s, hs, hframes⟩ : ∃ trs s, replay (handle realOps dft) pagesStart
      [.event ⟨.acceptNewUser 7, .success⟩, .event ⟨.acceptNewUser 8, .success⟩,
        .event ⟨.startCsi 7, .success⟩, .event ⟨.startConstellation 8, .success⟩,
        .command 8 .openDac] = some (trs, s) ∧
      framesTo realOps dft 8 trs =
        [.cmdState 3 "start constelltion confict with csi", .cmdState 0 "open dac success"] :=
    ⟨_, _, rfl, rfl⟩
  exact ⟨trs, s, hs, hframes, (frames_of_service (startState_started _ _)
    (run_of_replay (fun _ _ _ h => h) hs) 8).1⟩

/-- Connection 7 has the constellation open while 8 is refused CSI and goes. -/
theorem displays_of_view_constell :
    ∃ trs s trs' s', replay (handle realOps dft) pagesStart
        [.event ⟨.acceptNewUser 7, .success⟩, .event ⟨.acceptNewUser 8, .success⟩,
          .event ⟨.startConstellation 7, .success⟩] = some (trs, s) ∧
      replay (handle realOps dft) s
        [.constellationReady fourSamples, .event ⟨.startCsi 8, .success⟩,
          .event ⟨.delDisconnectUser 8, .success⟩] = some (trs', s') ∧
      (framesTo realOps dft 7 trs').filter Frame.isDisplay = along constellDisplay trs' ∧
      (Flagged RecordAction.enableStartConstell 7 s' ↔
        Flagged RecordAction.enableStartConstell 7 s) := by
  obtain ⟨trs, s, hs, trs', s', hs', hflag, hlabels⟩ : ∃ trs s, replay (handle realOps dft)
      pagesStart
      [.event ⟨.acceptNewUser 7, .success⟩, .event ⟨.acceptNewUser 8, .success⟩,
        .event ⟨.startConstellation 7, .success⟩] = some (trs, s) ∧
      ∃ trs' s', replay (handle realOps dft) s
        [.constellationReady fourSamples, .event ⟨.startCsi 8, .success⟩,
          .event ⟨.delDisconnectUser 8, .success⟩] = some (trs', s') ∧
      Flagged RecordAction.enableStartConstell 7 s ∧
      trs'.map (fun tr => tr.label) =
        [.constellationReady fourSamples, .event ⟨.startCsi 8, .success⟩,
          .event ⟨.delDisconnectUser 8, .success⟩] :=
    ⟨_, _, rfl, _, _, rfl, ⟨_, List.mem_cons_self, rfl, rfl⟩, rfl⟩
  have hstill : ∀ tr ∈ trs', ¬ Moves 7 tr.before tr.label := by
    intro tr htr
    have hlabel := List.mem_map_of_mem (f := fun tr => tr.label) htr
    rw [hlabels] at hlabel
    have hother : ¬ (8 : Int) = 7 := by decide
    rcases List.mem_cons.mp hlabel with hready | hlabel
    · rw [hready]
      exact id
    · rcases List.mem_cons.mp hlabel with hstart | hlabel
      · rw [hstart]
        exact hother
      · rw [List.mem_singleton.mp hlabel]
        exact hother
  obtain ⟨-, hshown, -, -, hkept⟩ := displays_of_view (startState_started _ _)
    (run_of_replay (fun _ _ _ h => h) hs) (run_of_replay (fun _ _ _ h => h) hs') hstill
  exact ⟨trs, s, trs', s', hs, hs', hshown hflag, hkept⟩

end GwWeb.PageRefinement
