import GwWeb.BookRuns
import GwWeb.SaveNodes

/-!
Save sessions over whole runs. As long as each start command meets a node whose
last recording is over, no two write threads share a node, every file ends up
with the records queued for it, and a message only clears what its writer used.
-/

namespace GwWeb.SaveIsolation

open TransitionRuns
open GwWeb.WebCommon
open GwWeb.Server
open GwWeb.MosquittoBroker
open GwWeb.DmaHandler
open GwWeb.EventProcess
open GwWeb.UserBook
open GwWeb.BookRefinement
open GwWeb.BookRuns
open GwWeb.WriteIsolation
open GwWeb.SaveNodes

/-- The start commands of an event are fresh. -/
def StartsFresh (s : State) (l : Label) : Prop :=
  match l.event with
  | .controlRssi connfd json =>
      FreshStart typeRssiControl json (findNode connfd s.broker) s.broker.save
  | .controlSaveIqData connfd json =>
      FreshStart typeControlSaveCsi json (findCsiSaveUserNode connfd s.dma) s.dma.save
  | _ => True

/-- The write thread of recording `k` has not ended. -/
def Writing (w : WriteComponent) (k : Nat) : Prop :=
  ∃ st, (w.recording k).writer = some st ∧ st.Live

/-- What is promised of the write components in every state. `finished` is about
a start command whose write thread is gone. -/
structure Protected (w : WriteComponent) (freed : List Nat) : Prop where
  oneWriter : ∀ j k, Writing w j → Writing w k → (w.recording j).node = (w.recording k).node →
    j = k
  files : ∀ k, (w.recording k).written <+: (w.recording k).queued ∧
    ((w.recording k).isOpen = false → (w.recording k).written = (w.recording k).queued)
  finished : ∀ k, (w.recording k).writer = some .exited →
    (w.recording k).written = (w.recording k).queued ∧
      ((w.recording k).isOpen = true → ∃ m ∈ w.posted, m.writer = k)
  writers : ∀ k, Writing w k → (w.recording k).node ∉ freed ∧
    ∃ w', writeThread freed k w = .ok w'

/-- Handling the message `m` takes away what its writer used, and nothing else;
no write thread is left on the node. -/
structure ClearsOwn (m : ClearStatus) (w w' : WriteComponent) : Prop where
  poster : (w.recording m.writer).node = m.node ∧ (w.recording m.writer).writer = some .exited
  idle : ∀ k, Writing w k → (w.recording k).node ≠ m.node
  own : w'.recording m.writer =
    { w.recording m.writer with isOpen := false, queue := none }
  others : ∀ k, k ≠ m.writer → w'.recording k = w.recording k
  slot : w'.fileT m.node = none
  slots : ∀ n, n ≠ m.node → w'.fileT n = w.fileT n

/-- What is promised of both protocols in every state: the message at the head of
the queue, if any, is handled well. -/
structure SavesProtected (s : State) : Prop where
  rssi : Protected s.broker.save s.broker.freed
  csi : Protected s.dma.save s.dma.csiSaveFreed
  clearRssi : ∀ m ms, s.broker.save.posted = m :: ms →
    ∃ s', handleClearRssiWriteStatus s = .ok s' ∧ ClearsOwn m s.broker.save s'.broker.save ∧
      ∀ a ∈ s'.broker.freed, a = m.node ∨ a ∈ s.broker.freed
  clearCsi : ∀ m ms, s.dma.save.posted = m :: ms →
    ∃ s', handleClearCsiWriteStatus s = .ok s' ∧ ClearsOwn m s.dma.save s'.dma.save ∧
      (∀ a ∈ s'.dma.csiSaveFreed, a = m.node ∨ a ∈ s.dma.csiSaveFreed) ∧
      s'.dma.csiSaveUserNodeHead =
        s.dma.csiSaveUserNodeHead.eraseP fun n => n.addr = m.node

section Components

variable {w : WriteComponent} {allocated : Nat} {freed : List Nat}

theorem protected_of_isolated (h : Isolated w allocated freed) : Protected w freed where
  oneWriter := by
    rintro j k ⟨st, hst, hlive⟩ ⟨st', hst', hlive'⟩ hnode
    obtain ⟨t, hslot, hq⟩ := h.live j st hst hlive
    obtain ⟨t', hslot', hq'⟩ := h.live k st' hst' hlive'
    rw [← hnode, hslot] at hslot'
    obtain rfl := Option.some.inj hslot'
    exact Option.some.inj (hq.symm.trans hq')
  files := h.files
  finished := by
    intro k hexited
    refine ⟨?_, h.announced k hexited⟩
    rcases Bool.eq_false_or_eq_true (w.recording k).isOpen with hopen | hclosed
    · obtain ⟨m, hm, rfl⟩ := h.announced k hexited hopen
      obtain ⟨-, t, hslot, hq⟩ := h.posted m hm
      have haccounted := (h.current m.node t m.writer hslot hq).2.accounted
      exact haccounted.written_eq_queued (by simp [drain, hexited, hasStopped])
    · exact (h.files k).2 hclosed
  writers := by
    rintro k ⟨st, hst, hlive⟩
    obtain ⟨t, hslot, -⟩ := h.live k st hst hlive
    obtain ⟨w', hw', -⟩ := isolated_writeThread h k
    exact ⟨h.not_freed hslot, w', hw'⟩

theorem clearsOwn_cleared (h : Isolated w allocated freed) {m : ClearStatus}
    {ms : List ClearStatus} (hposted : w.posted = m :: ms) : ClearsOwn m w (cleared w m ms) := by
  obtain ⟨hexited, t, hslot, hq⟩ := h.posted m (by simp [hposted])
  have hcur := (h.current m.node t m.writer hslot hq).2
  refine ⟨⟨hcur.node, hexited⟩, ?_, ?_, ?_, ?_, ?_⟩
  · rintro k ⟨st, hst, hlive⟩ hnode
    obtain ⟨t', hslot', hq'⟩ := h.live k st hst hlive
    rw [hnode, hslot] at hslot'
    obtain rfl := Option.some.inj hslot'
    obtain rfl := Option.some.inj (hq.symm.trans hq')
    exact hlive (Option.some.inj (hst.symm.trans hexited))
  · simp [cleared]
  · intro k hk
    exact WriteComponent.recording_setRecording_of_ne _ _ _ hk
  · simp [cleared]
  · intro n hn
    exact WriteComponent.fileT_setFileT_of_ne _ _ _ hn

end Components

/-- Both protocols are isolated, and the book is kept. -/
structure Separate (s : State) : Prop where
  kept : (book s).Kept
  device : s.dma.pAxidma = true
  rssi : RssiIsolated s.broker
  csi : CsiIsolated s.dma

section Handlers

variable {s : State} {m : ClearStatus} {ms : List ClearStatus}

theorem handleClearRssiWriteStatus_eq {g : GBrokerPara} (hposted : s.broker.save.posted = m :: ms)
    (hok : clearRssiWriteStatus m.node
      { s.broker with save := { s.broker.save with posted := ms } } = .ok g) :
    handleClearRssiWriteStatus s = .ok { s with broker := g } := by
  simp only [handleClearRssiWriteStatus, hposted, hok, bind, Except.bind]
  rfl

theorem handleClearCsiWriteStatus_eq {g : GDmaPara} (hposted : s.dma.save.posted = m :: ms)
    (hok : clearCsiWriteStatus m.node
      { s.dma with save := { s.dma.save with posted := ms } } = .ok g) :
    handleClearCsiWriteStatus s = .ok { s with dma := g } := by
  simp only [handleClearCsiWriteStatus, hposted, hok, bind, Except.bind]
  rfl

end Handlers

theorem savesProtected_of_separate {s : State} (h : Separate s) : SavesProtected s where
  rssi := protected_of_isolated h.rssi.save
  csi := protected_of_isolated h.csi.save
  clearRssi := by
    intro m ms hposted
    refine ⟨_, handleClearRssiWriteStatus_eq hposted (clearRssiWriteStatus_eq h.rssi hposted),
      clearsOwn_cleared h.rssi.save hposted, ?_⟩
    intro a ha
    dsimp only at ha
    split at ha
    · exact List.mem_cons.mp ha
    · exact .inr ha
  clearCsi := by
    intro m ms hposted
    exact ⟨_, handleClearCsiWriteStatus_eq hposted (clearCsiWriteStatus_eq h.csi hposted),
      clearsOwn_cleared h.csi.save hposted, fun a ha => List.mem_cons.mp ha, rfl⟩

section Steps

variable {s s' : State} {l : Label} {r : Replies} {connfd : Int}

theorem flagged_listed (hkept : (book s).Kept) {n : UserSessionNode}
    (hn : findUserNodeByConnfd connfd s.server = some n)
    (hflag : n.recordAction.enableRssi ≠ 0) :
    connfd ∈ s.broker.rssiUserNodeHead.map UserNode.connfd := by
  have hmem : bookSession n ∈ (book s).sessions :=
    List.mem_map_of_mem (List.mem_of_find?_eq_some hn)
  have hconnfd : n.connfd = connfd := by simpa using List.find?_some hn
  have hone : (bookSession n).flag .rssi = 1 := (hkept.binary _ hmem .rssi).resolve_left hflag
  have hentry : (connfd, true) ∈ entries .rssi (book s).sessions :=
    mem_entries.mpr ⟨bookSession n, hmem, hconnfd, hone⟩
  exact (hkept.covers .rssi).mem connfd hentry

theorem rssiIsolated_undoBroker {action : RecordAction} {g g' : GBrokerPara}
    (h : RssiIsolated g)
    (hlisted : action.enableRssi ≠ 0 → connfd ∈ g.rssiUserNodeHead.map UserNode.connfd)
    (hok : undoBroker connfd action r g = .ok g') : RssiIsolated g' := by
  obtain ⟨save, hstop, hclose⟩ := undoBroker_ok hok
  have hsave : RssiIsolated { g with save } := by
    rcases hstop with ⟨-, rfl⟩ | ⟨-, u, -, hinform⟩
    · exact h
    · exact h.withSave (isolated_informStop h.save hinform)
  rcases hclose with ⟨-, rfl⟩ | ⟨hflag, hclose⟩
  · exact hsave
  · exact rssiIsolated_closeRssiStateExternal hsave (hlisted hflag) hclose

theorem csiIsolated_undoDma {action : RecordAction} {g g' : GDmaPara} (h : CsiIsolated g)
    (hok : undoDma connfd action r g = .ok g') : CsiIsolated g' := by
  obtain ⟨save, hstop, hsame⟩ := undoDma_saves hok
  refine CsiIsolated.of_same ?_ hsame
  rcases hstop with ⟨-, rfl⟩ | ⟨-, u, -, hinform⟩
  · exact h
  · exact h.withSave (isolated_informStop h.save hinform)

theorem isolated_delUser (hkept : (book s).Kept) (hrssi : RssiIsolated s.broker)
    (hcsi : CsiIsolated s.dma) (hin : connfd ∈ sessionConnfds s.server)
    (hok : delUser connfd r s = .ok s') : RssiIsolated s'.broker ∧ CsiIsolated s'.dma := by
  obtain ⟨n, hn, -, -, hbroker, hdma⟩ := delUser_ok hin hok
  exact ⟨rssiIsolated_undoBroker hrssi (flagged_listed hkept hn) hbroker,
    csiIsolated_undoDma hcsi hdma⟩

theorem rssiIsolated_enableBrokerCallback (h : RssiIsolated s.broker) :
    RssiIsolated (enableBrokerCallback s).broker := by
  unfold enableBrokerCallback
  dsimp only
  split
  · exact h.enableCallback _
  · exact h

theorem csiIsolated_enableDmaCallback (h : CsiIsolated s.dma) :
    CsiIsolated (enableDmaCallback s).dma := by
  unfold enableDmaCallback
  dsimp only
  split
  · exact ⟨h.save, h.linked⟩
  · exact h

theorem isolated_handleOpenwrtConnected (h : Separate s)
    (hok : handleOpenwrtConnected r s = .ok s') :
    RssiIsolated s'.broker ∧ CsiIsolated s'.dma := by
  unfold handleOpenwrtConnected at hok
  split at hok
  · obtain rfl := Except.ok.inj hok
    exact ⟨h.rssi, h.csi⟩
  · obtain ⟨s₂, hdel, hok⟩ := bind_eq_ok.mp hok
    obtain rfl := Except.ok.inj hok
    have hs₂ : RssiIsolated s₂.broker ∧ CsiIsolated s₂.dma := by
      split at hdel
      · have hkept : (book { s with
            server := addNewUserNodeToList s.server.openwrtConnfd s.server }).Kept := by
          rw [book_addNewUserNodeToList]
          exact h.kept.act trivial
        exact isolated_delUser hkept h.rssi h.csi (mem_addNewUserNodeToList _ _) hdel
      · obtain rfl := Except.ok.inj hdel
        exact ⟨h.rssi, h.csi⟩
    exact ⟨rssiIsolated_enableBrokerCallback hs₂.1, hs₂.2⟩

theorem isolated_eventLoop (h : Separate s) (hfresh : StartsFresh s l) (hstep : Step s l s') :
    RssiIsolated s'.broker ∧ CsiIsolated s'.dma := by
  obtain ⟨hin, hok⟩ := hstep
  rcases l with ⟨event, r⟩
  have handled : Handled s r event s' := handled_of_eventLoop hok
  cases handled with
  | acceptNewUser connfd =>
      exact ⟨rssiIsolated_enableBrokerCallback (s := { s with
          server := addNewUserNodeToList connfd s.server }) h.rssi,
        csiIsolated_enableDmaCallback h.csi⟩
  | delDisconnectUser connfd _ hdel =>
      exact isolated_delUser h.kept h.rssi h.csi (hin connfd rfl) hdel
  | linkUp | linkUpIgnored | linkDown | linkDownIgnored => exact ⟨h.rssi, h.csi⟩
  | openwrtConnected _ hconnected => exact isolated_handleOpenwrtConnected h hconnected
  | openwrtDisconnect => exact ⟨h.rssi, h.csi⟩
  | inquiryRssi connfd ret broker hopen =>
      exact ⟨rssiIsolated_openRssiStateExternal h.rssi hopen, h.csi⟩
  | rssiReadyAndSend msg broker hsend =>
      exact ⟨rssiIsolated_sendRssiToSave h.rssi hsend, h.csi⟩
  | controlRssi connfd ret json broker server hsave =>
      exact ⟨rssiIsolated_processRssiSaveFile h.rssi hfresh hsave, h.csi⟩
  | clearRssiNone => exact ⟨h.rssi, h.csi⟩
  | clearRssi m ms broker hposted hclear =>
      exact ⟨rssiIsolated_clearRssiWriteStatus h.rssi hposted hclear, h.csi⟩
  | startCsi connfd =>
      unfold handleStartCsi
      split
      · exact ⟨h.rssi, h.csi⟩
      · exact ⟨h.rssi, h.csi.of_same (sameSaves_startCsiStateExternal _ _ _)⟩
  | stopCsi connfd => exact ⟨h.rssi, h.csi.of_same (sameSaves_stopCsiStateExternal _ _ _)⟩
  | csiReadyDropped => exact ⟨h.rssi, h.csi⟩
  | csiReady json dma hlength hsend =>
      have hjson : json ≠ [] := by
        rintro rfl
        simp at hlength
      have hcopied : CsiIsolated (processCSI json s.dma) := ⟨h.csi.save, h.csi.linked⟩
      exact ⟨h.rssi, csiIsolated_sendCsiToSave hcopied hjson hsend⟩
  | startConstellation connfd =>
      unfold handleStartConstellation
      split
      · exact ⟨h.rssi, h.csi⟩
      · exact ⟨h.rssi, h.csi.of_same (sameSaves_startConstellationExternal _ _ _)⟩
  | stopConstellation connfd =>
      exact ⟨h.rssi, h.csi.of_same (sameSaves_stopConstellationExternal _ _ _)⟩
  | controlSaveIqData connfd ret json dma server hsave =>
      exact ⟨h.rssi, csiIsolated_processCsiSaveFile h.csi hfresh hsave⟩
  | clearCsiNone => exact ⟨h.rssi, h.csi⟩
  | clearCsi m ms dma hposted hclear =>
      exact ⟨h.rssi, csiIsolated_clearCsiWriteStatus h.csi hposted hclear⟩
  | rssiWriteThread k broker hwrite => exact ⟨rssiIsolated_rssiWriteThread h.rssi hwrite, h.csi⟩
  | csiWriteThread k dma hwrite => exact ⟨h.rssi, csiIsolated_csiWriteThread h.csi hwrite⟩

theorem Separate.step (h : Separate s) (hfresh : StartsFresh s l) (hstep : Step s l s') :
    Separate s' := by
  obtain ⟨hkept, hdevice⟩ := kept_step h.kept h.device hstep
  obtain ⟨hrssi, hcsi⟩ := isolated_eventLoop h hfresh hstep
  exact ⟨hkept, hdevice, hrssi, hcsi⟩

end Steps

theorem separate_started {s : State} (hs : Started s) : Separate s := by
  obtain ⟨hkept, hdevice⟩ := kept_started hs
  obtain ⟨openJson, closeJson, hbroker⟩ := hs.broker
  refine ⟨hkept, hdevice, ?_, csiIsolated_createDmaHandler hs.dma⟩
  rw [hbroker]
  exact rssiIsolated_createBroker openJson closeJson

theorem separate_reached {s₀ s : State} {trs : List (Transition State Label)} (hs : Started s₀)
    (h : Run Step s₀ trs s) (hfresh : ∀ tr ∈ trs, StartsFresh tr.before tr.label) :
    Separate s := by
  have hkeep : ∀ a l b, Separate a → StartsFresh a l → Step a l b → Separate b :=
    fun a l b ha hguard hstep => ha.step hguard hstep
  exact (h.invariant hkeep (separate_started hs) hfresh).2

/-- In every state reached by a run whose start commands are fresh, the save
sessions of both protocols are isolated. -/
theorem saves_protected {s₀ s : State} {trs : List (Transition State Label)} (hs : Started s₀)
    (h : Run Step s₀ trs s) (hfresh : ∀ tr ∈ trs, StartsFresh tr.before tr.label) :
    SavesProtected s := savesProtected_of_separate (separate_reached hs h hfresh)

def saveRequest (type opCmd : Int) (fileName : String) : CJson := fun key =>
  if key = "type" then some { valueint := type, valuestring := none }
  else if key = "op_cmd" then some { valueint := opCmd, valuestring := none }
  else if key = "file_name" then some { valueint := 0, valuestring := some fileName }
  else none

/-- A step whose start commands are fresh, computed. -/
def surviveFresh (s : State) (l : Label) : Option State :=
  match l.event with
  | .controlRssi connfd json =>
      if FreshStart typeRssiControl json (findNode connfd s.broker) s.broker.save then survive s l
      else none
  | .controlSaveIqData connfd json =>
      if FreshStart typeControlSaveCsi json (findCsiSaveUserNode connfd s.dma) s.dma.save then
        survive s l
      else none
  | _ => survive s l

theorem step_of_surviveFresh (s : State) (l : Label) (s' : State)
    (h : surviveFresh s l = some s') : StartsFresh s l ∧ Step s l s' := by
  unfold surviveFresh at h
  unfold StartsFresh
  split at h
  · split at h
    · rename_i hfresh
      exact ⟨hfresh, step_of_survive s l s' h⟩
    · cases h
  · split at h
    · rename_i hfresh
      exact ⟨hfresh, step_of_survive s l s' h⟩
    · cases h
  · exact ⟨trivial, step_of_survive s l s' h⟩

/-- Connection 7 saves one sample, stops, and starts again behind the message. -/
def recordTwice : List Label :=
  [⟨.acceptNewUser 7, .success⟩, ⟨.inquiryRssi 7, .success⟩,
    ⟨.controlRssi 7 (saveRequest 43 1 "a"), .success⟩,
    ⟨.rssiReadyAndSend ⟨1, 2, 0, fun _ => 0⟩, .success⟩,
    ⟨.rssiWriteThread 0, .success⟩, ⟨.rssiWriteThread 0, .success⟩,
    ⟨.rssiWriteThread 0, .success⟩, ⟨.controlRssi 7 (saveRequest 43 0 ""), .success⟩,
    ⟨.rssiWriteThread 0, .success⟩, ⟨.rssiWriteThread 0, .success⟩,
    ⟨.rssiWriteThread 0, .success⟩, ⟨.clearRssiWriteStatus, .success⟩,
    ⟨.controlRssi 7 (saveRequest 43 1 "b"), .success⟩]

theorem saves_protected_record_twice :
    ∃ trs s, replay surviveFresh (startState ⟨"dev", "1"⟩ ⟨"dev", "0"⟩) recordTwice =
        some (trs, s) ∧
      s.broker.save.starts = 2 ∧
      (s.broker.save.recording 0).written = [[1, 0, 0, 0, 2, 0, 0, 0, 0, 0, 0, 0]] ∧
      SavesProtected s := by
  obtain ⟨trs, s, hs, hstarts, hwritten⟩ :
      ∃ trs s, replay surviveFresh (startState ⟨"dev", "1"⟩ ⟨"dev", "0"⟩) recordTwice =
          some (trs, s) ∧
        s.broker.save.starts = 2 ∧
        (s.broker.save.recording 0).written = [[1, 0, 0, 0, 2, 0, 0, 0, 0, 0, 0, 0]] :=
    ⟨_, _, rfl, rfl, rfl⟩
  have hrun : Run (fun a l b => StartsFresh a l ∧ Step a l b) _ trs s :=
    run_of_replay step_of_surviveFresh hs
  refine ⟨trs, s, hs, hstarts, hwritten, ?_⟩
  exact saves_protected (startState_started _ _) (hrun.mono fun _ _ _ h => h.2)
    fun tr htr => (hrun.step_of_mem htr).1

/-- Connection 7 stops a recording and starts the next one before the message of
the first. -/
def restartEarly : List Label :=
  [⟨.acceptNewUser 7, .success⟩, ⟨.inquiryRssi 7, .success⟩,
    ⟨.controlRssi 7 (saveRequest 43 1 "a"), .success⟩, ⟨.rssiWriteThread 0, .success⟩,
    ⟨.controlRssi 7 (saveRequest 43 0 ""), .success⟩, ⟨.rssiWriteThread 0, .success⟩,
    ⟨.controlRssi 7 (saveRequest 43 1 "b"), .success⟩]

/-- Then two write threads share a node, and the message of the first closes the
file of the second, which fails on its next step. -/
theorem restart_early_not_protected :
    ∃ trs s trs' s', Run Step (startState ⟨"dev", "1"⟩ ⟨"dev", "0"⟩) trs s ∧
      trs.map (fun tr => tr.label) = restartEarly ∧
      Writing s.broker.save 0 ∧ Writing s.broker.save 1 ∧
      (s.broker.save.recording 0).node = (s.broker.save.recording 1).node ∧
      ¬ SavesProtected s ∧
      Run Step s trs' s' ∧
      trs'.map (fun tr => tr.label) =
        [⟨.rssiWriteThread 0, .success⟩, ⟨.clearRssiWriteStatus, .success⟩] ∧
      Writing s'.broker.save 1 ∧ (s'.broker.save.recording 1).isOpen = false ∧
      (s'.broker.save.recording 0).isOpen = true ∧
      (rssiWriteThread 1 s'.broker).toOption.isNone := by
  obtain ⟨trs, s, trs', s', hs, hlabels, hpost, hfetch, hnode, hs', hlabels', hfetch', hclosed,
      hopen, hfault⟩ :
      ∃ trs s trs' s',
        replay survive (startState ⟨"dev", "1"⟩ ⟨"dev", "0"⟩) restartEarly = some (trs, s) ∧
        trs.map (fun tr => tr.label) = restartEarly ∧
        (s.broker.save.recording 0).writer = some .post ∧
        (s.broker.save.recording 1).writer = some .fetch ∧
        (s.broker.save.recording 0).node = (s.broker.save.recording 1).node ∧
        replay survive s [⟨.rssiWriteThread 0, .success⟩, ⟨.clearRssiWriteStatus, .success⟩] =
          some (trs', s') ∧
        trs'.map (fun tr => tr.label) =
          [⟨.rssiWriteThread 0, .success⟩, ⟨.clearRssiWriteStatus, .success⟩] ∧
        (s'.broker.save.recording 1).writer = some .fetch ∧
        (s'.broker.save.recording 1).isOpen = false ∧
        (s'.broker.save.recording 0).isOpen = true ∧
        (rssiWriteThread 1 s'.broker).toOption.isNone :=
    ⟨_, _, _, _, rfl, rfl, rfl, rfl, rfl, rfl, rfl, rfl, rfl, rfl, rfl⟩
  have hfirst : Writing s.broker.save 0 := ⟨.post, hpost, by decide⟩
  have hsecond : Writing s.broker.save 1 := ⟨.fetch, hfetch, by decide⟩
  refine ⟨trs, s, trs', s', run_of_replay step_of_survive hs, hlabels, hfirst, hsecond, hnode, ?_,
    run_of_replay step_of_survive hs', hlabels', ⟨.fetch, hfetch', by decide⟩, hclosed, hopen,
    hfault⟩
  intro h
  exact absurd (h.rssi.oneWriter 0 1 hfirst hsecond hnode) (by decide)

end GwWeb.SaveIsolation
