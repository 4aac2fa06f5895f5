import GwWeb.ResolvedPaths
import GwWeb.SaveCommands
import GwWeb.SlotRuns

/-!
The files that running writers hold open, and their path names.
-/

namespace GwWeb.SavePaths

open ResolvedPaths
open TransitionRuns
open GwWeb.WebCommon
open GwWeb.Server
open GwWeb.MosquittoBroker
open GwWeb.DmaHandler
open GwWeb.EventProcess
open GwWeb.WriteSlots
open GwWeb.WriteThreads
open GwWeb.SaveNodes
open GwWeb.SaveIsolation
open GwWeb.SaveCommands
open GwWeb.SlotRuns

/-- The file is open, and its writer is running. -/
def HoldsFile (r : Recording) : Prop := r.isOpen = true ∧ busy r = true

instance (r : Recording) : Decidable (HoldsFile r) := inferInstanceAs (Decidable (_ ∧ _))

/-- A write thread, by its protocol and start command. -/
inductive Writer where
  | rssi (k : Nat)
  | csi (k : Nat)
  deriving DecidableEq

/-- The recording of a write thread. -/
def recordingOf (s : State) : Writer → Recording
  | .rssi k => s.broker.save.recording k
  | .csi k => s.dma.save.recording k

/-- The path that a file name resolves to. -/
def path (fileName : String) : List (List Char) := normalise fileName.toList

/-- The file is inside `logDirectory`. -/
def Inside (fileName : String) : Prop := Within logDirectory.toList fileName.toList

instance (fileName : String) : Decidable (Inside fileName) :=
  inferInstanceAs (Decidable (Within _ _))

/-- Files that are held are distinct, and inside the log directory. -/
structure SavesApart (s : State) : Prop where
  distinct : ∀ v v', HoldsFile (recordingOf s v) → HoldsFile (recordingOf s v') →
    path (recordingOf s v).fileName = path (recordingOf s v').fileName → v = v'
  inside : ∀ v, HoldsFile (recordingOf s v) → Inside (recordingOf s v).fileName

/-- A start command on this slot gets its file and its queue. -/
structure StartsOn (slot : Option WriteFile) (root : CJson) (r : SaveReplies) (name : String) :
    Prop where
  command : valueint root "op_cmd" = .ok 1
  idle : (slot.getD .fresh).enable ≠ 1
  name : valuestring root "file_name" = .ok name
  fopen : r.fopen = true
  queue : r.tinyQueueCreate = true

/-- The event starts a recording of this name. -/
def Starts (s : State) (l : Label) (name : String) : Prop :=
  match l.event with
  | .controlRssi connfd json =>
      valueint json "type" = .ok typeRssiControl ∧ ∃ u, findNode connfd s.broker = some u ∧
        StartsOn (s.broker.save.fileT u.addr) json l.replies.save name
  | .controlSaveIqData connfd json =>
      valueint json "type" = .ok typeControlSaveCsi ∧
        StartsOn ((findCsiSaveUserNode connfd s.dma).bind fun u => s.dma.save.fileT u.addr) json
          l.replies.save name
  | _ => False

/-- What the event starts goes to a file inside the directory that no running
writer holds. -/
def StartsApart (s : State) (l : Label) : Prop :=
  ∀ name, Starts s l name → Inside (logDirectory ++ name) ∧
    ∀ v, HoldsFile (recordingOf s v) →
      path (recordingOf s v).fileName ≠ path (logDirectory ++ name)

theorem inside_of_plain {name : String} (h : Plain name.toList) :
    Inside (logDirectory ++ name) := by
  have hdirectory : logDirectory.toList =
      "/run/media/mmcblk1p1/gw_web/web/log".toList ++ ['/'] := by decide
  have hsame : normalise logDirectory.toList =
      normalise "/run/media/mmcblk1p1/gw_web/web/log".toList := by decide
  have hwithin := within_of_plain h "/run/media/mmcblk1p1/gw_web/web/log".toList
  unfold Inside Within
  rw [hsame, String.toList_append, hdirectory, List.append_assoc]
  exact hwithin

/-- No writer comes to hold a file, and the names stay. -/
def Recedes (w w' : WriteComponent) : Prop :=
  ∀ k, HoldsFile (w'.recording k) → HoldsFile (w.recording k) ∧
    (w'.recording k).fileName = (w.recording k).fileName

/-- One more writer has a file open, of that name. -/
structure Launched (name : String) (w w' : WriteComponent) : Prop where
  holds : HoldsFile (w'.recording w.starts)
  fileName : (w'.recording w.starts).fileName = logDirectory ++ name
  others : ∀ k, k ≠ w.starts → w'.recording k = w.recording k

variable {w w' w'' : WriteComponent} {k n : Nat} {t : WriteFile} {r : SaveReplies}

theorem Recedes.refl (w : WriteComponent) : Recedes w w := fun _ h => ⟨h, rfl⟩

theorem Recedes.trans (h : Recedes w w') (h' : Recedes w' w'') : Recedes w w'' := by
  intro k hk
  obtain ⟨hk', hname'⟩ := h' k hk
  obtain ⟨hk'', hname⟩ := h k hk'
  exact ⟨hk'', hname'.trans hname⟩

theorem Recedes.of_recording (h : w'.recording = w.recording) : Recedes w w' := by
  intro k hk
  rw [h] at hk ⊢
  exact ⟨hk, rfl⟩

theorem Recedes.setRecording {rec : Recording}
    (h : HoldsFile rec → HoldsFile (w.recording k) ∧ rec.fileName = (w.recording k).fileName) :
    Recedes w (w.setRecording k rec) := by
  intro j hj
  rcases eq_or_ne j k with rfl | hne
  · rw [WriteComponent.recording_setRecording] at hj ⊢
    exact h hj
  · rw [WriteComponent.recording_setRecording_of_ne _ _ _ hne] at hj ⊢
    exact ⟨hj, rfl⟩

section Operations

theorem recedes_tinyQueuePush {queue : Option Nat} {item : QueueItem} {memory : Bool}
    (hok : tinyQueuePush queue item memory w = .ok w') : Recedes w w' := by
  rcases tinyQueuePush_ok hok with ⟨-, rfl⟩ | ⟨-, k, items, -, -, rfl⟩
  · exact .refl w'
  · exact .setRecording fun h => ⟨h, rfl⟩

theorem recedes_informStop (hok : informStop n r w = .ok w') : Recedes w w' := by
  obtain ⟨t, w₁, -, hpush, rfl⟩ := informStop_pushes hok
  exact (recedes_tinyQueuePush hpush).trans (.of_recording rfl)

theorem recedes_queueRecord {buf : List UInt8} {memory : Bool}
    (hok : queueRecord t buf memory w = .ok w') : Recedes w w' := by
  rcases queueRecord_ok hok with ⟨-, rfl⟩ | ⟨-, k, items, -, -, rfl⟩
  · exact .refl w'
  · exact .setRecording fun h => ⟨h, rfl⟩

theorem recedes_sendToSave {record : Except Fault (List UInt8)} {knowsTwo : Bool}
    (nodes : List Nat) (hok : sendToSave record knowsTwo r nodes w = .ok w') : Recedes w w' := by
  replace hok := sent_of_sendToSave hok
  induction hok with
  | done | ended => exact .refl _
  | skipped _ _ ih => exact ih
  | queued _ _ _ hqueue _ ih => exact (recedes_queueRecord hqueue).trans ih
  | stopped _ _ hstop _ ih => exact (recedes_informStop hstop).trans ih

theorem recedes_goTo {st : WriterState} (hbusy : busy (w.recording k) = true) :
    Recedes w (goTo k st w) :=
  .setRecording fun h => ⟨⟨h.1, hbusy⟩, rfl⟩

theorem recedes_writeThread {freed : List Nat} (hok : writeThread freed k w = .ok w') :
    Recedes w w' := by
  have hkeeps : ∀ (q : Nat) (rec : Recording), rec.isOpen = (w.recording q).isOpen →
      rec.writer = (w.recording q).writer → rec.fileName = (w.recording q).fileName →
      busy (w.recording k) = true → ∀ st, Recedes w (goTo k st (w.setRecording q rec)) := by
    intro q rec hopen hwriter hname hbusy st
    have hsame : busy rec = busy (w.recording q) := busy_congr hwriter
    have hset : Recedes w (w.setRecording q rec) := by
      refine .setRecording fun h => ⟨⟨hopen ▸ h.1, hsame ▸ h.2⟩, hname⟩
    exact hset.trans (recedes_goTo (by rwa [apply_setRecording busy hsame]))
  cases threadStep_of_writeThread hok with
  | idle | waits => exact .refl w
  | fetched t hwriter => exact recedes_goTo (by simp [busy, hwriter])
  | popped q item items hwriter hitems =>
      exact hkeeps q { w.recording q with queue := some items } rfl rfl rfl
        (by simp [busy, hwriter]) _
  | wrote buf t f hwriter =>
      exact hkeeps f { w.recording f with written := (w.recording f).written ++ [buf] } rfl rfl rfl
        (by simp [busy, hwriter]) _
  | posted hwriter =>
      exact (Recedes.of_recording rfl).trans (recedes_goTo (by simp [busy, hwriter]))

theorem recedes_clearWriteStatus {freed : List Nat}
    (hok : clearWriteStatus freed n w = .ok w') : Recedes w w' := by
  obtain ⟨-, t, k, q, -, -, -, rfl⟩ := clearWriteStatus_clears hok
  have hclosed : Recedes w (w.setRecording k { w.recording k with isOpen := false }) :=
    .setRecording fun h => absurd h.1 (by simp)
  refine (hclosed.trans ?_).trans (.of_recording rfl)
  exact .setRecording fun h => ⟨h, rfl⟩

theorem performed_recedes {opCmd : Int} {root : CJson} (slot : Option WriteFile)
    (hslot : slot.getD .fresh = t) (hcmd : valueint root "op_cmd" = .ok opCmd)
    (h : Performed n t opCmd root r w w') :
    (∀ name, ¬ StartsOn slot root r name) ∧ Recedes w w' ∨
      ∃ name, StartsOn slot root r name ∧ Launched name w w' := by
  subst hslot
  have hone : ∀ {name}, StartsOn slot root r name → opCmd = 1 :=
    fun hstarts => Except.ok.inj (hcmd.symm.trans hstarts.command)
  cases h with
  | idle _ henable =>
      exact .inl ⟨fun name hstarts => hstarts.idle (henable (hone hstarts)), .refl w⟩
  | stopped k items hzero =>
      refine .inl ⟨fun name hstarts => by simp [hone hstarts] at hzero, ?_⟩
      have hset : Recedes w (w.setRecording k { w.recording k with
          queue := some (items ++ [.terminator]) }) := .setRecording fun h => ⟨h, rfl⟩
      exact hset.trans (.of_recording rfl)
  | notStopped hzero =>
      exact .inl ⟨fun name hstarts => by simp [hone hstarts] at hzero, .of_recording rfl⟩
  | started name h1 henable hname hopen hcreate =>
      refine .inr ⟨name, ⟨h1 ▸ hcmd, henable, hname, hopen, hcreate⟩, ?_, ?_, fun k hk => ?_⟩
      · simp [HoldsFile, busy]
      · simp
      · exact WriteComponent.recording_setRecording_of_ne _ _ _ hk
  | leftOpen name _ _ _ _ hcreate =>
      refine .inl ⟨fun name hstarts => by simp [hstarts.queue] at hcreate, ?_⟩
      intro k hk
      rcases eq_or_ne k w.starts with rfl | hne
      · simp [HoldsFile, busy] at hk
      · rw [WriteComponent.recording_setFileT,
          WriteComponent.recording_setRecording_of_ne _ _ _ hne] at hk ⊢
        exact ⟨hk, rfl⟩
  | noFile name _ _ _ hopen =>
      exact .inl ⟨fun name hstarts => by simp [hstarts.fopen] at hopen, .of_recording rfl⟩

end Operations

section Sessions

variable {s s' : State} {l : Label} {replies : Replies} {connfd : Int}

/-- Neither module's writers come to hold a file. -/
def BothRecede (s s' : State) : Prop :=
  Recedes s.broker.save s'.broker.save ∧ Recedes s.dma.save s'.dma.save

theorem BothRecede.of_save (hbroker : s'.broker.save = s.broker.save)
    (hdma : s'.dma.save = s.dma.save) : BothRecede s s' := by
  unfold BothRecede
  rw [hbroker, hdma]
  exact ⟨.refl _, .refl _⟩

theorem closed_save (reply : TransferReply) (g : GBrokerPara) :
    (closed reply g).save = g.save := by
  unfold closed
  split <;> rfl

theorem closeRssiStateExternal_save {reply : TransferReply} {g g' : GBrokerPara}
    (hok : closeRssiStateExternal connfd reply g = .ok g') : g'.save = g.save := by
  obtain ⟨g₁, hunlink, rfl, -⟩ := closeRssiStateExternal_eq_ok_iff.mp hok
  obtain ⟨freed, confirmDelete, rfl⟩ := unlinkRssiUserNode_ok hunlink
  rw [closed_save]

theorem openRssiStateExternal_recedes {ret : Int} {reply : TransferReply} {g g' : GBrokerPara}
    (hok : openRssiStateExternal connfd reply g = .ok (ret, g')) : Recedes g.save g'.save := by
  have hg' : g' = _ := congrArg Prod.snd (openRssiStateExternal_ok hok)
  apply Recedes.of_recording
  rw [hg']
  split
  · split <;> rfl
  · rfl

theorem undoBroker_save {action : RecordAction} {g g' : GBrokerPara}
    (hok : undoBroker connfd action replies g = .ok g') :
    g'.save = g.save ∨ ∃ n, informStop n replies.save g.save = .ok g'.save := by
  obtain ⟨save, hstop, hclose⟩ := undoBroker_ok hok
  have hsave : g'.save = save := by
    rcases hclose with ⟨-, rfl⟩ | ⟨-, hclose⟩
    · rfl
    · exact closeRssiStateExternal_save hclose
  rw [hsave]
  exact hstop.imp (fun h => h.2) fun ⟨_, u, _, hinform⟩ => ⟨u.addr, hinform⟩

theorem undoDma_save {action : RecordAction} {g g' : GDmaPara}
    (hok : undoDma connfd action replies g = .ok g') :
    g'.csiSaveUserNodeHead = g.csiSaveUserNodeHead ∧
      (g'.save = g.save ∨ ∃ n, informStop n replies.save g.save = .ok g'.save) := by
  obtain ⟨save, hstop, hsame⟩ := undoDma_saves hok
  refine ⟨hsame.nodes, ?_⟩
  rw [hsame.save]
  exact hstop.imp (fun h => h.2) fun ⟨_, u, _, hinform⟩ => ⟨u.addr, hinform⟩

theorem recedes_undoBroker {action : RecordAction} {g g' : GBrokerPara}
    (hok : undoBroker connfd action replies g = .ok g') : Recedes g.save g'.save := by
  rcases undoBroker_save hok with hsame | ⟨n, hinform⟩
  · exact .of_recording (congrArg WriteComponent.recording hsame)
  · exact recedes_informStop hinform

theorem recedes_undoDma {action : RecordAction} {g g' : GDmaPara}
    (hok : undoDma connfd action replies g = .ok g') : Recedes g.save g'.save := by
  rcases (undoDma_save hok).2 with hsame | ⟨n, hinform⟩
  · exact .of_recording (congrArg WriteComponent.recording hsame)
  · exact recedes_informStop hinform

theorem recede_delUser (hok : delUser connfd replies s = .ok s') : BothRecede s s' := by
  unfold delUser at hok
  dsimp only at hok
  split at hok
  · obtain rfl := Except.ok.inj hok
    exact .of_save rfl rfl
  · obtain ⟨broker, hbroker, hok⟩ := bind_eq_ok.mp hok
    obtain ⟨dma, hdma, hok⟩ := bind_eq_ok.mp hok
    obtain rfl := Except.ok.inj hok
    exact ⟨recedes_undoBroker hbroker, recedes_undoDma hdma⟩

theorem enableBrokerCallback_save (s : State) :
    (enableBrokerCallback s).broker.save = s.broker.save := by
  unfold enableBrokerCallback
  dsimp only
  split <;> rfl

theorem enableDmaCallback_save (s : State) : (enableDmaCallback s).dma.save = s.dma.save := by
  unfold enableDmaCallback
  dsimp only
  split <;> rfl

theorem recede_handleOpenwrtConnected (hok : handleOpenwrtConnected replies s = .ok s') :
    BothRecede s s' := by
  unfold handleOpenwrtConnected at hok
  split at hok
  · obtain rfl := Except.ok.inj hok
    exact .of_save rfl rfl
  · obtain ⟨s₂, hdel, hok⟩ := bind_eq_ok.mp hok
    obtain rfl := Except.ok.inj hok
    unfold BothRecede
    rw [enableBrokerCallback_save]
    split at hdel
    · have hrecede := recede_delUser hdel
      exact hrecede
    · obtain rfl := Except.ok.inj hdel
      exact ⟨.refl _, .refl _⟩

/-- What an event does to the files that running writers hold: at most one is
added, by a start command. -/
inductive Holders (s : State) (l : Label) (s' : State) : Prop where
  | recede (hstarts : ∀ name, ¬ Starts s l name) (h : BothRecede s s')
  | rssi (name : String) (hstarts : Starts s l name)
      (hrssi : Launched name s.broker.save s'.broker.save) (hcsi : s'.dma = s.dma)
  | csi (name : String) (hstarts : Starts s l name)
      (hcsi : Launched name s.dma.save s'.dma.save) (hrssi : s'.broker = s.broker)

theorem holders_controlRssi {json : CJson} {ret : Int} {broker : GBrokerPara}
    {server : GServerPara}
    (hsave : processRssiSaveFile connfd json replies.save s.broker = .ok (ret, broker)) :
    Holders s ⟨.controlRssi connfd json, replies⟩ { s with broker, server } := by
  have hidle : ∀ {u slot}, findNode connfd s.broker = some u →
      s.broker.save.fileT u.addr = slot → (∀ name, ¬ StartsOn slot json replies.save name) →
      ∀ name, ¬ Starts s ⟨.controlRssi connfd json, replies⟩ name := by
    rintro u slot hu rfl hnot name ⟨-, u', hu', hstarts⟩
    obtain rfl := Option.some.inj (hu.symm.trans hu')
    exact hnot name hstarts
  cases processRssiSaveFile_commanded hsave with
  | otherType type htype hother =>
      refine .recede (fun name hstarts => ?_) (.of_save rfl rfl)
      exact hother (Except.ok.inj (htype.symm.trans hstarts.1))
  | noNode htype hnone =>
      refine .recede (fun name hstarts => ?_) (.of_save rfl rfl)
      obtain ⟨-, u, hu, -⟩ := hstarts
      rw [hnone] at hu
      cases hu
  | found u t opCmd save htype hu hslot hcmd hperformed =>
      rcases performed_recedes (some t) rfl hcmd hperformed with
        ⟨hnot, hrecedes⟩ | ⟨name, hstarts, hlaunched⟩
      · exact .recede (hidle hu hslot hnot) ⟨hrecedes, .refl _⟩
      · exact .rssi name ⟨htype, u, hu, hslot ▸ hstarts⟩ hlaunched rfl
  | made u opCmd save htype hu hslot hcmd hperformed =>
      rcases performed_recedes none rfl hcmd hperformed with
        ⟨hnot, hrecedes⟩ | ⟨name, hstarts, hlaunched⟩
      · exact .recede (hidle hu hslot hnot) ⟨hrecedes, .refl _⟩
      · exact .rssi name ⟨htype, u, hu, hslot ▸ hstarts⟩
          ⟨hlaunched.holds, hlaunched.fileName, hlaunched.others⟩ rfl

theorem holders_controlSaveIqData {json : CJson} {ret : Int} {dma : GDmaPara}
    {server : GServerPara}
    (hsave : processCsiSaveFile connfd json replies.save s.dma = .ok (ret, dma)) :
    Holders s ⟨.controlSaveIqData connfd json, replies⟩ { s with dma, server } := by
  cases processCsiSaveFile_commanded hsave with
  | otherType type htype hother =>
      refine .recede (fun name hstarts => ?_) (.of_save rfl rfl)
      exact hother (Except.ok.inj (htype.symm.trans hstarts.1))
  | found u t opCmd save htype hfind hslot hcmd hperformed =>
      have hsome : ((findCsiSaveUserNode connfd s.dma).bind fun u => s.dma.save.fileT u.addr) =
          some t := by rw [hfind, Option.bind_some, hslot]
      rcases performed_recedes (some t) rfl hcmd hperformed with
        ⟨hnot, hrecedes⟩ | ⟨name, hstarts, hlaunched⟩
      · exact .recede (fun name hstarts => hnot name (hsome ▸ hstarts.2)) ⟨.refl _, hrecedes⟩
      · exact .csi name ⟨htype, hsome ▸ hstarts⟩ hlaunched rfl
  | made opCmd save htype hfind hcmd hperformed =>
      have hnone : ((findCsiSaveUserNode connfd s.dma).bind fun u => s.dma.save.fileT u.addr) =
          none := by rw [hfind, Option.bind_none]
      rcases performed_recedes none rfl hcmd hperformed with
        ⟨hnot, hrecedes⟩ | ⟨name, hstarts, hlaunched⟩
      · exact .recede (fun name hstarts => hnot name (hnone ▸ hstarts.2)) ⟨.refl _, hrecedes⟩
      · exact .csi name ⟨htype, hnone ▸ hstarts⟩
          ⟨hlaunched.holds, hlaunched.fileName, hlaunched.others⟩ rfl

theorem holders_eventLoop (hstep : Step s l s') : Holders s l s' := by
  obtain ⟨-, hok⟩ := hstep
  rcases l with ⟨event, r⟩
  have handled : Handled s r event s' := handled_of_eventLoop hok
  cases handled with
  | acceptNewUser connfd =>
      refine .recede (fun _ hstarts => hstarts) (.of_save ?_ ?_)
      · exact enableBrokerCallback_save _
      · exact enableDmaCallback_save _
  | delDisconnectUser connfd _ hdel =>
    exact .recede (fun _ hstarts => hstarts) (recede_delUser hdel)
  | openwrtConnected _ hconnected =>
      exact .recede (fun _ hstarts => hstarts) (recede_handleOpenwrtConnected hconnected)
  | linkUp | linkUpIgnored | linkDown | linkDownIgnored | openwrtDisconnect | clearRssiNone
  | clearCsiNone | csiReadyDropped =>
      exact .recede (fun _ hstarts => hstarts) (.of_save rfl rfl)
  | inquiryRssi connfd ret broker hopen =>
      exact .recede (fun _ hstarts => hstarts) ⟨openRssiStateExternal_recedes hopen, .refl _⟩
  | rssiReadyAndSend msg broker hsend =>
      obtain ⟨save, hloop, hsend⟩ := bind_eq_ok.mp hsend
      obtain rfl := Except.ok.inj hsend
      exact .recede (fun _ hstarts => hstarts) ⟨recedes_sendToSave _ hloop, .refl _⟩
  | controlRssi connfd ret json broker server hsave => exact holders_controlRssi hsave
  | clearRssi m ms broker hposted hclear =>
      obtain ⟨save, hwrite, hclear⟩ := bind_eq_ok.mp hclear
      have hrecedes : Recedes { s.broker.save with posted := ms } save :=
        recedes_clearWriteStatus hwrite
      refine .recede (fun _ hstarts => hstarts) ⟨?_, .refl _⟩
      split at hclear
      · exact Except.ok.inj hclear ▸ hrecedes
      · exact Except.ok.inj hclear ▸ hrecedes
  | startCsi connfd =>
      unfold handleStartCsi
      split
      · exact .recede (fun _ hstarts => hstarts) (.of_save rfl rfl)
      · exact .recede (fun _ hstarts => hstarts)
          (.of_save rfl (sameSaves_startCsiStateExternal _ _ _).save)
  | stopCsi connfd =>
      exact .recede (fun _ hstarts => hstarts)
        (.of_save rfl (sameSaves_stopCsiStateExternal _ _ _).save)
  | csiReady json dma hlength hsend =>
      obtain ⟨save, hloop, hsend⟩ := bind_eq_ok.mp hsend
      obtain rfl := Except.ok.inj hsend
      exact .recede (fun _ hstarts => hstarts) ⟨.refl _, recedes_sendToSave _ hloop⟩
  | startConstellation connfd =>
      unfold handleStartConstellation
      split
      · exact .recede (fun _ hstarts => hstarts) (.of_save rfl rfl)
      · exact .recede (fun _ hstarts => hstarts)
          (.of_save rfl (sameSaves_startConstellationExternal _ _ _).save)
  | stopConstellation connfd =>
      exact .recede (fun _ hstarts => hstarts)
        (.of_save rfl (sameSaves_stopConstellationExternal _ _ _).save)
  | controlSaveIqData connfd ret json dma server hsave => exact holders_controlSaveIqData hsave
  | clearCsi m ms dma hposted hclear =>
      obtain ⟨save, hwrite, hclear⟩ := bind_eq_ok.mp hclear
      obtain rfl := Except.ok.inj hclear
      have hrecedes : Recedes { s.dma.save with posted := ms } save :=
        recedes_clearWriteStatus hwrite
      exact .recede (fun _ hstarts => hstarts) ⟨.refl _, hrecedes⟩
  | rssiWriteThread k broker hwrite =>
      obtain ⟨save, hthread, hwrite⟩ := bind_eq_ok.mp hwrite
      obtain rfl := Except.ok.inj hwrite
      exact .recede (fun _ hstarts => hstarts) ⟨recedes_writeThread hthread, .refl _⟩
  | csiWriteThread k dma hwrite =>
      obtain ⟨save, hthread, hwrite⟩ := bind_eq_ok.mp hwrite
      obtain rfl := Except.ok.inj hwrite
      exact .recede (fun _ hstarts => hstarts) ⟨.refl _, recedes_writeThread hthread⟩

/-- Writer `v` comes to hold a file of this name. -/
structure Adds (v : Writer) (name : String) (s s' : State) : Prop where
  idle : ¬ HoldsFile (recordingOf s v)
  holds : HoldsFile (recordingOf s' v)
  fileName : (recordingOf s' v).fileName = logDirectory ++ name
  others : ∀ v', v' ≠ v → recordingOf s' v' = recordingOf s v'

theorem not_holdsFile_starts {w : WriteComponent} {allocated k : Nat} (h : Slotted w allocated)
    (hk : w.starts ≤ k) : ¬ HoldsFile (w.recording k) := by
  rintro ⟨-, hbusy⟩
  rw [h.unused k hk] at hbusy
  cases hbusy

theorem adds_rssi {name : String} (h : Slots s)
    (hlaunched : Launched name s.broker.save s'.broker.save) (hcsi : s'.dma = s.dma) :
    Adds (.rssi s.broker.save.starts) name s s' where
  idle := not_holdsFile_starts h.rssi.save (Nat.le_refl _)
  holds := hlaunched.holds
  fileName := hlaunched.fileName
  others := by
    intro v hv
    cases v with
    | rssi k => exact hlaunched.others k fun hk => hv (congrArg Writer.rssi hk)
    | csi k =>
        unfold recordingOf
        rw [hcsi]

theorem adds_csi {name : String} (h : Slots s)
    (hlaunched : Launched name s.dma.save s'.dma.save) (hrssi : s'.broker = s.broker) :
    Adds (.csi s.dma.save.starts) name s s' where
  idle := not_holdsFile_starts h.csi.save (Nat.le_refl _)
  holds := hlaunched.holds
  fileName := hlaunched.fileName
  others := by
    intro v hv
    cases v with
    | rssi k =>
        unfold recordingOf
        rw [hrssi]
    | csi k => exact hlaunched.others k fun hk => hv (congrArg Writer.csi hk)

theorem BothRecede.holds (h : BothRecede s s') {v : Writer} (hv : HoldsFile (recordingOf s' v)) :
    HoldsFile (recordingOf s v) ∧ (recordingOf s' v).fileName = (recordingOf s v).fileName := by
  cases v with
  | rssi k => exact h.1 k hv
  | csi k => exact h.2 k hv

theorem SavesApart.recede (h : SavesApart s) (hrecede : BothRecede s s') : SavesApart s' where
  distinct := by
    intro v v' hv hv' hpath
    obtain ⟨hold, hname⟩ := hrecede.holds hv
    obtain ⟨hold', hname'⟩ := hrecede.holds hv'
    rw [hname, hname'] at hpath
    exact h.distinct v v' hold hold' hpath
  inside := by
    intro v hv
    obtain ⟨hold, hname⟩ := hrecede.holds hv
    rw [hname]
    exact h.inside v hold

theorem SavesApart.adds_iff (h : SavesApart s) {v₀ : Writer} {name : String}
    (hadds : Adds v₀ name s s') :
    SavesApart s' ↔ Inside (logDirectory ++ name) ∧
      ∀ v, HoldsFile (recordingOf s v) →
        path (recordingOf s v).fileName ≠ path (logDirectory ++ name) := by
  have hne : ∀ {v}, HoldsFile (recordingOf s v) → v ≠ v₀ := by
    rintro v hv rfl
    exact hadds.idle hv
  constructor
  · intro h'
    refine ⟨hadds.fileName ▸ h'.inside v₀ hadds.holds, fun v hv hpath => ?_⟩
    have hsame := hadds.others v (hne hv)
    have hv' : HoldsFile (recordingOf s' v) := hsame ▸ hv
    refine hne hv (h'.distinct v v₀ hv' hadds.holds ?_)
    rw [hsame, hadds.fileName]
    exact hpath
  · rintro ⟨hinside, hapart⟩
    have hheld : ∀ {v}, HoldsFile (recordingOf s' v) → v ≠ v₀ →
        HoldsFile (recordingOf s v) ∧ recordingOf s' v = recordingOf s v := by
      intro v hv hvne
      have hsame := hadds.others v hvne
      exact ⟨hsame ▸ hv, hsame⟩
    constructor
    · intro v v' hv hv' hpath
      by_cases hv₀ : v = v₀
      · by_cases hv₀' : v' = v₀
        · exact hv₀.trans hv₀'.symm
        · obtain ⟨hold, hsame⟩ := hheld hv' hv₀'
          rw [hv₀, hadds.fileName, hsame] at hpath
          exact absurd hpath.symm (hapart v' hold)
      · obtain ⟨hold, hsame⟩ := hheld hv hv₀
        by_cases hv₀' : v' = v₀
        · rw [hv₀', hadds.fileName, hsame] at hpath
          exact absurd hpath (hapart v hold)
        · obtain ⟨hold', hsame'⟩ := hheld hv' hv₀'
          rw [hsame, hsame'] at hpath
          exact h.distinct v v' hold hold' hpath
    · intro v hv
      by_cases hv₀ : v = v₀
      · rw [hv₀, hadds.fileName]
        exact hinside
      · obtain ⟨hold, hsame⟩ := hheld hv hv₀
        rw [hsame]
        exact h.inside v hold

theorem starts_unique {a b : String} (ha : Starts s l a) (hb : Starts s l b) : a = b := by
  rcases l with ⟨event, r⟩
  cases event with
  | controlRssi connfd json =>
      obtain ⟨-, u, -, hstarts⟩ := ha
      obtain ⟨-, u', -, hstarts'⟩ := hb
      exact Except.ok.inj (hstarts.name.symm.trans hstarts'.name)
  | controlSaveIqData connfd json =>
      exact Except.ok.inj (ha.2.name.symm.trans hb.2.name)
  | _ => exact ha.elim

/-- The files stay apart just if what the event starts is apart. -/
theorem savesApart_step_iff (hslots : Slots s) (h : SavesApart s) (hstep : Step s l s') :
    SavesApart s' ↔ StartsApart s l := by
  have hnamed : ∀ {name v₀}, Starts s l name → Adds v₀ name s s' →
      (SavesApart s' ↔ StartsApart s l) := by
    intro name v₀ hstarts hadds
    rw [h.adds_iff hadds]
    constructor
    · intro hname name' hstarts'
      obtain rfl := starts_unique hstarts hstarts'
      exact hname
    · intro hapart
      exact hapart name hstarts
  cases holders_eventLoop hstep with
  | recede hnot hrecede =>
      apply iff_of_true
      · exact h.recede hrecede
      · exact fun name hstarts => absurd hstarts (hnot name)
  | rssi name hstarts hlaunched hcsi => exact hnamed hstarts (adds_rssi hslots hlaunched hcsi)
  | csi name hstarts hlaunched hrssi => exact hnamed hstarts (adds_csi hslots hlaunched hrssi)

theorem savesApart_started (hs : Started s) : SavesApart s := by
  have hnone : ∀ v, ¬ HoldsFile (recordingOf s v) := by
    obtain ⟨openJson, closeJson, hbroker⟩ := hs.broker
    have hdma := hs.dma
    simp only [createDmaHandler, if_true, Option.some.injEq] at hdma
    intro v
    cases v with
    | rssi k => simp [recordingOf, hbroker, createBroker, WriteComponent.empty, HoldsFile,
        Recording.unused]
    | csi k => simp [recordingOf, ← hdma, WriteComponent.empty, HoldsFile, Recording.unused]
  exact ⟨fun v _ hv => absurd hv (hnone v), fun v hv => absurd hv (hnone v)⟩

/-- Over a whole run the files that running writers hold stay apart, exactly if
every recording goes to a file apart from those held when it starts. -/
theorem saves_apart_iff {s₀ : State} {trs : List (Transition State Label)} (hs : Started s₀)
    (h : Run Step s₀ trs s) :
    (∀ tr ∈ trs, SavesApart tr.after) ↔ ∀ tr ∈ trs, StartsApart tr.before tr.label := by
  have hkeep : ∀ a l b, Slots a ∧ SavesApart a → StartsApart a l → Step a l b →
      (Slots b ∧ SavesApart b) ∧ SavesApart b := by
    rintro a l b ⟨hslots, hapart⟩ hguard hstep
    have hb := (savesApart_step_iff hslots hapart hstep).mpr hguard
    exact ⟨⟨hslots.step hstep, hb⟩, hb⟩
  have hbreak : ∀ a l b, Slots a ∧ SavesApart a → ¬ StartsApart a l → Step a l b →
      ¬ SavesApart b := by
    rintro a l b ⟨hslots, hapart⟩ hguard hstep hb
    exact hguard ((savesApart_step_iff hslots hapart hstep).mp hb)
  exact h.forall_good_iff hkeep hbreak ⟨slots_started hs, savesApart_started hs⟩

end Sessions

/-- Connection 7 records both kinds of data, under two names. -/
theorem saves_apart_two_names :
    ∃ trs s, Run Step (startState ⟨"dev", "1"⟩ ⟨"dev", "0"⟩) trs s ∧
      trs.map (fun tr => tr.label) =
        [⟨.acceptNewUser 7, .success⟩, ⟨.inquiryRssi 7, .success⟩,
          ⟨.controlRssi 7 (saveRequest 43 1 "a"), .success⟩,
          ⟨.controlSaveIqData 7 (saveRequest 53 1 "b"), .success⟩] ∧
      HoldsFile (recordingOf s (.rssi 0)) ∧ HoldsFile (recordingOf s (.csi 0)) ∧
      ∀ tr ∈ trs, SavesApart tr.after := by
  obtain ⟨s₁, s₂, s₃, s₄, h₁, h₂, h₃, h₄, hbroker, hdma, hstarts, hname, hdma', hrssi, hcsi⟩ :
      ∃ s₁ s₂ s₃ s₄,
        survive (startState ⟨"dev", "1"⟩ ⟨"dev", "0"⟩) ⟨.acceptNewUser 7, .success⟩ = some s₁ ∧
        survive s₁ ⟨.inquiryRssi 7, .success⟩ = some s₂ ∧
        survive s₂ ⟨.controlRssi 7 (saveRequest 43 1 "a"), .success⟩ = some s₃ ∧
        survive s₃ ⟨.controlSaveIqData 7 (saveRequest 53 1 "b"), .success⟩ =
          some s₄ ∧
        (∀ k, (s₂.broker.save.recording k).isOpen = false) ∧
        (∀ k, (s₂.dma.save.recording k).isOpen = false) ∧
        s₃.broker.save.starts = 1 ∧
        (s₃.broker.save.recording 0).fileName = logDirectory ++ "a" ∧
        (∀ k, (s₃.dma.save.recording k).isOpen = false) ∧
        HoldsFile (recordingOf s₄ (.rssi 0)) ∧ HoldsFile (recordingOf s₄ (.csi 0)) :=
    ⟨_, _, _, _, rfl, rfl, rfl, rfl, fun _ => rfl, fun _ => rfl, rfl, rfl, fun _ => rfl,
      ⟨rfl, rfl⟩, ⟨rfl, rfl⟩⟩
  have hclosed : ∀ {r : Recording}, r.isOpen = false → ¬ HoldsFile r := by
    rintro r hr ⟨hopen, -⟩
    rw [hr] at hopen
    cases hopen
  have hrun₃ := (((Run.nil (startState ⟨"dev", "1"⟩ ⟨"dev", "0"⟩)).concat
    (step_of_survive _ _ _ h₁)).concat (step_of_survive _ _ _ h₂)).concat
    (step_of_survive _ _ _ h₃)
  have hrun := hrun₃.concat (step_of_survive _ _ _ h₄)
  refine ⟨_, s₄, hrun, rfl, hrssi, hcsi, ?_⟩
  refine (saves_apart_iff (startState_started _ _) hrun).mpr ?_
  have hslots := slots_reached (startState_started _ _) hrun₃
  simp only [List.nil_append, List.cons_append, List.forall_mem_cons]
  refine ⟨fun _ h => h.elim, fun _ h => h.elim, ?_, ?_, by simp⟩
  · rintro name ⟨-, u, -, hstart⟩
    obtain rfl : "a" = name := Except.ok.inj hstart.name
    refine ⟨inside_of_plain ⟨by decide, by decide, by decide, by decide⟩, fun v hv => ?_⟩
    cases v with
    | rssi k => exact absurd hv (hclosed (hbroker k))
    | csi k => exact absurd hv (hclosed (hdma k))
  · rintro name ⟨-, hstart⟩
    obtain rfl : "b" = name := Except.ok.inj hstart.name
    refine ⟨inside_of_plain ⟨by decide, by decide, by decide, by decide⟩, fun v hv => ?_⟩
    cases v with
    | rssi k =>
        obtain rfl : k = 0 := by
          by_contra hk
          exact not_holdsFile_starts hslots.rssi.save (by omega) hv
        rw [recordingOf, hname]
        decide
    | csi k => exact absurd hv (hclosed (hdma' k))

/-- Connections 7 and 8 record RSSI data under one name, and connection 7 CSI data
outside the directory. -/
def recordOver : List Label :=
  [⟨.acceptNewUser 7, .success⟩, ⟨.acceptNewUser 8, .success⟩, ⟨.inquiryRssi 7, .success⟩,
    ⟨.inquiryRssi 8, .success⟩, ⟨.controlRssi 7 (saveRequest 43 1 "a"), .success⟩,
    ⟨.controlRssi 8 (saveRequest 43 1 "a"), .success⟩,
    ⟨.controlSaveIqData 7 (saveRequest 53 1 "../a"), .success⟩]

theorem shared_and_outside :
    ∃ trs s, Run Step (startState ⟨"dev", "1"⟩ ⟨"dev", "0"⟩) trs s ∧
      trs.map (fun tr => tr.label) = recordOver ∧
      HoldsFile (recordingOf s (.rssi 0)) ∧ HoldsFile (recordingOf s (.rssi 1)) ∧
      (recordingOf s (.rssi 0)).fileName = (recordingOf s (.rssi 1)).fileName ∧
      HoldsFile (recordingOf s (.csi 0)) ∧ ¬ Inside (recordingOf s (.csi 0)).fileName ∧
      ¬ SavesApart s := by
  obtain ⟨trs, s, hs, hlabels, hfirst, hsecond, hsame, hcsi, hname⟩ :
      ∃ trs s, replay survive (startState ⟨"dev", "1"⟩ ⟨"dev", "0"⟩) recordOver =
          some (trs, s) ∧
        trs.map (fun tr => tr.label) = recordOver ∧
        HoldsFile (recordingOf s (.rssi 0)) ∧ HoldsFile (recordingOf s (.rssi 1)) ∧
        (recordingOf s (.rssi 0)).fileName = (recordingOf s (.rssi 1)).fileName ∧
        HoldsFile (recordingOf s (.csi 0)) ∧
        (recordingOf s (.csi 0)).fileName = logDirectory ++ "../a" :=
    ⟨_, _, rfl, rfl, ⟨rfl, rfl⟩, ⟨rfl, rfl⟩, rfl, ⟨rfl, rfl⟩, rfl⟩
  have houtside : ¬ Inside (recordingOf s (.csi 0)).fileName := by
    rw [hname]
    decide
  refine ⟨trs, s, run_of_replay step_of_survive hs, hlabels, hfirst, hsecond, hsame, hcsi,
    houtside, fun h => ?_⟩
  exact houtside (h.inside _ hcsi)

end GwWeb.SavePaths
