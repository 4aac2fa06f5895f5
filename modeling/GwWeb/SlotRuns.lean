import GwWeb.SaveIsolation
import GwWeb.SlottedNodes

/-!
The save slots over the event loop: what a session leaves behind, and what every
step keeps, whatever it starts.
-/

namespace GwWeb.SlotRuns

open TransitionRuns
open GwWeb.WebCommon
open GwWeb.Server
open GwWeb.MosquittoBroker
open GwWeb.DmaHandler
open GwWeb.EventProcess
open GwWeb.BookRefinement
open GwWeb.BookRuns
open GwWeb.WriteSlots
open GwWeb.SaveNodes
open GwWeb.SaveIsolation
open GwWeb.SlottedNodes

/-- The slots of both protocols are right, and the book is kept. -/
structure Slots (s : State) : Prop where
  kept : (book s).Kept
  device : s.dma.pAxidma = true
  rssi : RssiSlotted s.broker
  csi : CsiSlotted s.dma

variable {s s' : State} {l : Label} {r : Replies} {connfd : Int}

/-- Only the node of the connection stops, if a flag says so. -/
def Stops (flag : Int) (node : Option UserNode) (w w' : WriteComponent) : Prop :=
  ∀ a, Runs w' a ↔ Runs w a ∧ (flag ≠ 0 → ∀ u, node = some u → u.addr ≠ a)

/-- What the broker does for a session that goes: the node of its connection is
stopped, and then unlinked. -/
structure Undone (connfd : Int) (action : RecordAction) (r : Replies) (g g' : GBrokerPara) :
    Prop where
  slotted : RssiSlotted g'
  save : (action.enableRssiSave = 0 ∨ findNode connfd g = none) ∧ g'.save = g.save ∨
    action.enableRssiSave ≠ 0 ∧ ∃ u, findNode connfd g = some u ∧
      informStop u.addr r.save g.save = .ok g'.save
  quiet : Quiet g.save g'.save
  stops : Stops action.enableRssiSave (findNode connfd g) g.save g'.save
  node : action.enableRssi = 0 ∧ g'.rssiUserNodeHead = g.rssiUserNodeHead ∧
      g'.freed = g.freed ∧ g'.confirmDelete = g.confirmDelete ∨
    action.enableRssi ≠ 0 ∧ ∃ u, findNode connfd g = some u ∧
      Released u { g with save := g'.save } g'

theorem stops_of_informed {flag : Int} {node : Option UserNode} {reply : SaveReplies}
    {w w' : WriteComponent}
    (h : (flag = 0 ∨ node = none) ∧ w' = w ∨
      flag ≠ 0 ∧ ∃ u, node = some u ∧ informStop u.addr reply w = .ok w') :
    Quiet w w' ∧ Stops flag node w w' := by
  rcases h with ⟨hnone, rfl⟩ | ⟨hflag, u, rfl, hinform⟩
  · refine ⟨.refl _, fun a => ?_⟩
    rcases hnone with hflag | hnone
    · simp [hflag]
    · simp [hnone]
  · obtain ⟨hquiet, -, -, -, hothers⟩ := quiet_informStop hinform
    refine ⟨hquiet, fun a => ?_⟩
    rcases eq_or_ne u.addr a with rfl | hne
    · simp [hflag, not_runs_informStop hinform]
    · simp [hne, runs_congr (hothers a hne.symm)]

theorem undoBroker_undone {action : RecordAction} {g g' : GBrokerPara} (h : RssiSlotted g)
    (hlisted : action.enableRssi ≠ 0 → connfd ∈ g.rssiUserNodeHead.map UserNode.connfd)
    (hok : undoBroker connfd action r g = .ok g') : Undone connfd action r g g' := by
  obtain ⟨save, hinform, hclose⟩ := undoBroker_ok hok
  obtain ⟨hquiet, hstops⟩ := stops_of_informed hinform
  have hslotted := h.withSave (h.save.of_quiet hquiet)
  rcases hclose with ⟨hflag, rfl⟩ | ⟨hflag, hclose⟩
  · exact ⟨hslotted, hinform, hquiet, hstops, .inl ⟨hflag, rfl, rfl, rfl⟩⟩
  · obtain ⟨hslotted', u, hu, hreleased⟩ :=
      closeRssiStateExternal_released hslotted (hlisted hflag) hclose
    have hsave : g'.save = save := hreleased.save
    refine ⟨hslotted', hsave ▸ hinform, hsave ▸ hquiet, hsave ▸ hstops, .inr ⟨hflag, u, hu, ?_⟩⟩
    rw [hsave]
    exact hreleased

theorem undoDma_slots {action : RecordAction} {g g' : GDmaPara} (h : CsiSlotted g)
    (hok : undoDma connfd action r g = .ok g') :
    CsiSlotted g' ∧ g'.csiSaveUserNodeHead = g.csiSaveUserNodeHead ∧
      Stops action.enableCsiSave (findCsiSaveUserNode connfd g) g.save g'.save := by
  obtain ⟨save, hinform, hsame⟩ := undoDma_saves hok
  obtain ⟨hquiet, hstops⟩ := stops_of_informed hinform
  have hslotted := h.withSave (h.save.of_quiet hquiet)
  refine ⟨hslotted.of_same hsame, hsame.nodes, ?_⟩
  rw [hsame.save]
  exact hstops

/-- What a session that goes takes along. -/
structure Gone (connfd : Int) (n : UserSessionNode) (r : Replies) (s s' : State) : Prop where
  found : findUserNodeByConnfd connfd s.server = some n
  sessions : s'.server.userSessionNodeHead =
    s.server.userSessionNodeHead.eraseP fun n => n.connfd = connfd
  broker : Undone connfd n.recordAction r s.broker s'.broker
  dma : CsiSlotted s'.dma
  csiNodes : s'.dma.csiSaveUserNodeHead = s.dma.csiSaveUserNodeHead
  csiStops : Stops n.recordAction.enableCsiSave (findCsiSaveUserNode connfd s.dma) s.dma.save
    s'.dma.save

theorem delUser_gone (hkept : (book s).Kept) (hrssi : RssiSlotted s.broker)
    (hcsi : CsiSlotted s.dma) (hin : connfd ∈ sessionConnfds s.server)
    (hok : delUser connfd r s = .ok s') : ∃ n, Gone connfd n r s s' := by
  obtain ⟨n, hn, hsessions, -, hbroker, hdma⟩ := delUser_ok hin hok
  obtain ⟨hslotted, hnodes, hstops⟩ := undoDma_slots hcsi hdma
  exact ⟨n, hn, hsessions, undoBroker_undone hrssi (flagged_listed hkept hn) hbroker, hslotted,
    hnodes, hstops⟩

/-- What `MSG_OPENWRT_CONNECTED` does: nothing, or a session enters, and goes
again if it could not be handed over. -/
inductive Connected (s : State) (r : Replies) : State → Prop where
  | linkIsDown (h : s.server.openwrtLink = 0) : Connected s r s
  | entered (h : s.server.openwrtLink ≠ 0) (hwrite : r.eventfdWrite ≠ -1) :
      Connected s r (enableBrokerCallback
        { s with server := addNewUserNodeToList s.server.openwrtConnfd s.server })
  | left (n : UserSessionNode) (s₂ : State) (h : s.server.openwrtLink ≠ 0)
      (hwrite : r.eventfdWrite = -1)
      (hgone : Gone s.server.openwrtConnfd n r
        { s with server := addNewUserNodeToList s.server.openwrtConnfd s.server } s₂) :
      Connected s r (enableBrokerCallback s₂)

theorem handleOpenwrtConnected_connected (h : Slots s)
    (hok : handleOpenwrtConnected r s = .ok s') : Connected s r s' := by
  unfold handleOpenwrtConnected at hok
  split at hok
  · rename_i hlink
    obtain rfl := Except.ok.inj hok
    exact .linkIsDown hlink
  · rename_i hlink
    obtain ⟨s₂, hdel, hok⟩ := bind_eq_ok.mp hok
    obtain rfl := Except.ok.inj hok
    split at hdel
    · rename_i hwrite
      have hkept : (book { s with
          server := addNewUserNodeToList s.server.openwrtConnfd s.server }).Kept := by
        rw [book_addNewUserNodeToList]
        exact h.kept.act trivial
      obtain ⟨n, hgone⟩ :=
        delUser_gone hkept h.rssi h.csi (mem_addNewUserNodeToList _ _) hdel
      exact .left n s₂ hlink hwrite hgone
    · rename_i hwrite
      obtain rfl := Except.ok.inj hdel
      exact .entered hlink hwrite

theorem rssiSlotted_enableBrokerCallback (h : RssiSlotted s.broker) :
    RssiSlotted (enableBrokerCallback s).broker := by
  unfold enableBrokerCallback
  dsimp only
  split
  · exact h.enableCallback _
  · exact h

theorem csiSlotted_enableDmaCallback (h : CsiSlotted s.dma) :
    CsiSlotted (enableDmaCallback s).dma := by
  unfold enableDmaCallback
  dsimp only
  split
  · exact ⟨h.save, h.linked, h.bounded⟩
  · exact h

theorem slotted_eventLoop (h : Slots s) (hstep : Step s l s') :
    RssiSlotted s'.broker ∧ CsiSlotted s'.dma := by
  obtain ⟨hin, hok⟩ := hstep
  rcases l with ⟨event, r⟩
  have handled : Handled s r event s' := handled_of_eventLoop hok
  cases handled with
  | acceptNewUser connfd =>
      exact ⟨rssiSlotted_enableBrokerCallback (s := { s with
          server := addNewUserNodeToList connfd s.server }) h.rssi,
        csiSlotted_enableDmaCallback h.csi⟩
  | delDisconnectUser connfd _ hdel =>
      obtain ⟨n, hgone⟩ := delUser_gone h.kept h.rssi h.csi (hin connfd rfl) hdel
      exact ⟨hgone.broker.slotted, hgone.dma⟩
  | linkUp | linkUpIgnored | linkDown | linkDownIgnored => exact ⟨h.rssi, h.csi⟩
  | openwrtConnected _ hconnected =>
      cases handleOpenwrtConnected_connected h hconnected with
      | linkIsDown => exact ⟨h.rssi, h.csi⟩
      | entered => exact ⟨rssiSlotted_enableBrokerCallback h.rssi, h.csi⟩
      | left n s₂ hlink hwrite hgone =>
          exact ⟨rssiSlotted_enableBrokerCallback hgone.broker.slotted, hgone.dma⟩
  | openwrtDisconnect => exact ⟨h.rssi, h.csi⟩
  | inquiryRssi connfd ret broker hopen =>
      exact ⟨(openRssiStateExternal_nodes h.rssi hopen).1, h.csi⟩
  | rssiReadyAndSend msg broker hsend => exact ⟨(sendRssiToSave_slots h.rssi hsend).1, h.csi⟩
  | controlRssi connfd ret json broker server hsave =>
      exact ⟨(processRssiSaveFile_slots h.rssi hsave).1, h.csi⟩
  | clearRssiNone => exact ⟨h.rssi, h.csi⟩
  | clearRssi m ms broker hposted hclear =>
      exact ⟨(clearRssiWriteStatus_slots h.rssi hclear).1, h.csi⟩
  | startCsi connfd =>
      unfold handleStartCsi
      split
      · exact ⟨h.rssi, h.csi⟩
      · exact ⟨h.rssi, h.csi.of_same (sameSaves_startCsiStateExternal _ _ _)⟩
  | stopCsi connfd => exact ⟨h.rssi, h.csi.of_same (sameSaves_stopCsiStateExternal _ _ _)⟩
  | csiReadyDropped => exact ⟨h.rssi, h.csi⟩
  | csiReady json dma hlength hsend =>
      have hcopied : CsiSlotted (processCSI json s.dma) :=
        ⟨h.csi.save, h.csi.linked, h.csi.bounded⟩
      exact ⟨h.rssi, (sendCsiToSave_slots hcopied hsend).1⟩
  | startConstellation connfd =>
      unfold handleStartConstellation
      split
      · exact ⟨h.rssi, h.csi⟩
      · exact ⟨h.rssi, h.csi.of_same (sameSaves_startConstellationExternal _ _ _)⟩
  | stopConstellation connfd =>
      exact ⟨h.rssi, h.csi.of_same (sameSaves_stopConstellationExternal _ _ _)⟩
  | controlSaveIqData connfd ret json dma server hsave =>
      exact ⟨h.rssi, (processCsiSaveFile_slots h.csi hsave).1⟩
  | clearCsiNone => exact ⟨h.rssi, h.csi⟩
  | clearCsi m ms dma hposted hclear =>
      exact ⟨h.rssi, (clearCsiWriteStatus_slots h.csi hclear).1⟩
  | rssiWriteThread k broker hwrite => exact ⟨(rssiWriteThread_slots h.rssi hwrite).1, h.csi⟩
  | csiWriteThread k dma hwrite => exact ⟨h.rssi, (csiWriteThread_slots h.csi hwrite).1⟩

theorem Slots.step (h : Slots s) (hstep : Step s l s') : Slots s' := by
  obtain ⟨hkept, hdevice⟩ := kept_step h.kept h.device hstep
  obtain ⟨hrssi, hcsi⟩ := slotted_eventLoop h hstep
  exact ⟨hkept, hdevice, hrssi, hcsi⟩

theorem slots_started (hs : Started s) : Slots s := by
  obtain ⟨hkept, hdevice⟩ := kept_started hs
  obtain ⟨openJson, closeJson, hbroker⟩ := hs.broker
  refine ⟨hkept, hdevice, ?_, csiSlotted_createDmaHandler hs.dma⟩
  rw [hbroker]
  exact rssiSlotted_createBroker openJson closeJson

theorem slots_reached {trs : List (Transition State Label)} (hs : Started s)
    (h : Run Step s trs s') : Slots s' := by
  have hkeep : ∀ a l b, Slots a → True → Step a l b → Slots b :=
    fun a l b ha _ hstep => ha.step hstep
  exact (h.invariant hkeep (slots_started hs) fun _ _ => trivial).2

end GwWeb.SlotRuns
