import GwWeb.SavePaths

/-!
The `enable` of every `write_file_t` is 0 or 1 whatever was handled, and a listed
save node keeps its `write_file_t`.
-/

namespace GwWeb.SteadySlots

open TransitionRuns
open GwWeb.WebCommon
open GwWeb.Server
open GwWeb.MosquittoBroker
open GwWeb.DmaHandler
open GwWeb.EventProcess
open GwWeb.WriteSlots
open GwWeb.WriteThreads
open GwWeb.SaveNodes
open GwWeb.SlottedNodes
open GwWeb.SaveCommands
open GwWeb.SlotRuns
open GwWeb.SavePaths

def Binary (enable : Int) : Prop := enable = 0 ∨ enable = 1

/-- All of `enable` are 0 or 1. -/
def BinaryFlags (w : WriteComponent) : Prop := ∀ n t, w.fileT n = some t → Binary t.enable

/-- No slot goes, and no flag comes that is neither 0 nor 1. -/
structure Steady (w w' : WriteComponent) : Prop where
  kept : ∀ n, w.fileT n ≠ none → w'.fileT n ≠ none
  flags : BinaryFlags w → BinaryFlags w'

/-- The listed save nodes have their `write_file_t`. -/
def Equipped (g : GDmaPara) : Prop := ∀ u ∈ g.csiSaveUserNodeHead, g.save.fileT u.addr ≠ none

/-- The slots are right, with flags that are 0 or 1. -/
structure Regular (s : State) : Prop where
  slots : Slots s
  rssi : BinaryFlags s.broker.save
  csi : BinaryFlags s.dma.save
  equipped : Equipped s.dma

section Operations

variable {w w' w'' : WriteComponent} {n : Nat} {t : WriteFile} {r : SaveReplies}

theorem Steady.of_fileT (h : w'.fileT = w.fileT) : Steady w w' := by
  constructor
  · intro n hn
    rwa [h]
  · intro hflags n t hslot
    exact hflags n t (h ▸ hslot)

theorem Steady.refl (w : WriteComponent) : Steady w w := .of_fileT rfl

theorem Steady.trans (h : Steady w w') (h' : Steady w' w'') : Steady w w'' :=
  ⟨fun n hn => h'.kept n (h.kept n hn), fun hflags => h'.flags (h.flags hflags)⟩

theorem Steady.of_quiet (h : Quiet w w') : Steady w w' := by
  constructor
  · intro n hn
    rcases h.slots n with hsame | ⟨t, -, hslot⟩
    · rwa [hsame]
    · simp [hslot]
  · intro hflags n t' hslot
    rcases h.slots n with hsame | ⟨t, -, hdisabled⟩
    · exact hflags n t' (hsame ▸ hslot)
    · obtain rfl := Option.some.inj (hdisabled.symm.trans hslot)
      exact .inl rfl

theorem Steady.setFileT (h : BinaryFlags w → Binary t.enable) :
    Steady w (w.setFileT n (some t)) := by
  constructor
  · intro m hm
    rcases eq_or_ne m n with rfl | hne
    · simp
    · rwa [WriteComponent.fileT_setFileT_of_ne _ _ _ hne]
  · intro hflags m t' hslot
    rcases eq_or_ne m n with rfl | hne
    · rw [WriteComponent.fileT_setFileT] at hslot
      exact Option.some.inj hslot ▸ h hflags
    · rw [WriteComponent.fileT_setFileT_of_ne _ _ _ hne] at hslot
      exact hflags m t' hslot

theorem steady_informStop (hok : informStop n r w = .ok w') : Steady w w' :=
  .of_quiet (quiet_informStop hok).1

theorem steady_performed {opCmd : Int} {root : CJson} (hslot : w.fileT n = some t)
    (h : Performed n t opCmd root r w w') : Steady w w' := by
  cases h with
  | idle => exact .refl w
  | stopped k items =>
      have hset : Steady w (w.setRecording k { w.recording k with
          queue := some (items ++ [.terminator]) }) := .of_fileT rfl
      exact hset.trans (.setFileT fun _ => .inl rfl)
  | notStopped => exact .setFileT fun _ => .inl rfl
  | started =>
      refine Steady.trans ?_ (.setFileT fun _ => .inr rfl)
      exact .of_fileT rfl
  | leftOpen =>
      refine Steady.trans ?_ (.setFileT fun hflags => hflags n t hslot)
      exact .of_fileT rfl
  | noFile => exact .setFileT fun hflags => hflags n t hslot

theorem steady_made {opCmd : Int} {root : CJson}
    (h : Performed n .fresh opCmd root r (w.setFileT n (some .fresh)) w') : Steady w w' := by
  have hfresh : Steady w (w.setFileT n (some .fresh)) := .setFileT fun _ => .inl rfl
  exact hfresh.trans (steady_performed (WriteComponent.fileT_setFileT _ _ _) h)

theorem binaryFlags_of_takesAway (h : TakesAway n w w') (hflags : BinaryFlags w) :
    BinaryFlags w' := by
  intro m t hslot
  rw [h.fileT] at hslot
  rcases eq_or_ne m n with rfl | hne
  · simp at hslot
  · rw [Function.update_of_ne hne] at hslot
    exact hflags m t hslot

end Operations

section Sessions

variable {s s' : State} {l : Label} {r : Replies} {connfd ret : Int}

/-- What an event does to the flags and the listed save nodes. -/
structure KeepsRegular (s s' : State) : Prop where
  rssi : BinaryFlags s.broker.save → BinaryFlags s'.broker.save
  csi : BinaryFlags s.dma.save → BinaryFlags s'.dma.save
  equipped : Equipped s.dma → Equipped s'.dma

theorem Equipped.of_steady {g g' : GDmaPara} (h : Equipped g) (hsteady : Steady g.save g'.save)
    (hnodes : g'.csiSaveUserNodeHead = g.csiSaveUserNodeHead) : Equipped g' := by
  intro u hu
  exact hsteady.kept _ (h u (hnodes ▸ hu))

theorem KeepsRegular.of_steady (hbroker : Steady s.broker.save s'.broker.save)
    (hdma : Steady s.dma.save s'.dma.save)
    (hnodes : s'.dma.csiSaveUserNodeHead = s.dma.csiSaveUserNodeHead) : KeepsRegular s s' :=
  ⟨hbroker.flags, hdma.flags, fun h => h.of_steady hdma hnodes⟩

theorem KeepsRegular.of_same (hbroker : s'.broker.save = s.broker.save)
    (hdma : SameSaves s.dma s'.dma) : KeepsRegular s s' :=
  .of_steady (.of_fileT (congrArg _ hbroker)) (.of_fileT (congrArg _ hdma.save)) hdma.nodes

theorem keepsRegular_delUser (hok : delUser connfd r s = .ok s') : KeepsRegular s s' := by
  unfold delUser at hok
  dsimp only at hok
  split at hok
  · obtain rfl := Except.ok.inj hok
    exact .of_same rfl (.refl _)
  · obtain ⟨broker, hbroker, hok⟩ := bind_eq_ok.mp hok
    obtain ⟨dma, hdma, hok⟩ := bind_eq_ok.mp hok
    obtain rfl := Except.ok.inj hok
    obtain ⟨hnodes, hsave⟩ := undoDma_save hdma
    refine .of_steady ?_ ?_ hnodes
    · rcases undoBroker_save hbroker with hsame | ⟨n, hinform⟩
      · exact .of_fileT (congrArg _ hsame)
      · exact steady_informStop hinform
    · rcases hsave with hsame | ⟨n, hinform⟩
      · exact .of_fileT (congrArg _ hsame)
      · exact steady_informStop hinform

theorem sameSaves_enableDmaCallback (s : State) : SameSaves s.dma (enableDmaCallback s).dma := by
  unfold enableDmaCallback
  dsimp only
  split <;> exact ⟨rfl, rfl, rfl, Nat.le_refl _⟩

theorem keepsRegular_handleOpenwrtConnected (hok : handleOpenwrtConnected r s = .ok s') :
    KeepsRegular s s' := by
  unfold handleOpenwrtConnected at hok
  split at hok
  · obtain rfl := Except.ok.inj hok
    exact .of_same rfl (.refl _)
  · obtain ⟨s₂, hdel, hok⟩ := bind_eq_ok.mp hok
    obtain rfl := Except.ok.inj hok
    have hlast : KeepsRegular s₂ (enableBrokerCallback s₂) :=
      .of_same (enableBrokerCallback_save s₂) (.refl _)
    split at hdel
    · obtain ⟨hrssi, hcsi, hequipped⟩ := keepsRegular_delUser hdel
      exact ⟨fun h => hlast.rssi (hrssi h), fun h => hlast.csi (hcsi h),
        fun h => hlast.equipped (hequipped h)⟩
    · obtain rfl := Except.ok.inj hdel
      exact ⟨hlast.rssi, hlast.csi, hlast.equipped⟩

theorem steady_processRssiSaveFile {json : CJson} {reply : SaveReplies} {g g' : GBrokerPara}
    (hok : processRssiSaveFile connfd json reply g = .ok (ret, g')) : Steady g.save g'.save := by
  cases processRssiSaveFile_commanded hok with
  | otherType | noNode => exact .refl _
  | found u t opCmd save htype hu hslot hcmd hperformed => exact steady_performed hslot hperformed
  | made u opCmd save htype hu hslot hcmd hperformed => exact steady_made hperformed

theorem steady_processCsiSaveFile {json : CJson} {reply : SaveReplies} {g g' : GDmaPara}
    (hok : processCsiSaveFile connfd json reply g = .ok (ret, g')) :
    Steady g.save g'.save ∧ (Equipped g → Equipped g') := by
  cases processCsiSaveFile_commanded hok with
  | otherType => exact ⟨.refl _, fun h => h⟩
  | found u t opCmd save htype hfind hslot hcmd hperformed =>
      have hsteady : Steady g.save save := steady_performed hslot hperformed
      exact ⟨hsteady, fun h => h.of_steady hsteady rfl⟩
  | made opCmd save htype hfind hcmd hperformed =>
      refine ⟨steady_made hperformed, fun h u hu => ?_⟩
      rcases List.mem_append.mp hu with hold | hnew
      · exact (steady_made hperformed).kept _ (h u hold)
      · obtain rfl := List.mem_singleton.mp hnew
        have hslot : (g.save.setFileT g.allocated (some .fresh)).fileT g.allocated =
            some .fresh := WriteComponent.fileT_setFileT _ _ _
        exact (steady_performed hslot hperformed).kept _ (by simp)

theorem keepsRegular_clearCsi {m : ClearStatus} {ms : List ClearStatus} {g g' : GDmaPara}
    (h : CsiSlotted g)
    (hok : clearCsiWriteStatus m.node { g with save := { g.save with posted := ms } } = .ok g') :
    (BinaryFlags g.save → BinaryFlags g'.save) ∧ (Equipped g → Equipped g') := by
  obtain ⟨-, htakes, hnodes⟩ := clearCsiWriteStatus_slots h hok
  refine ⟨fun hflags => binaryFlags_of_takesAway htakes hflags, fun hequipped u hu => ?_⟩
  rw [hnodes] at hu
  have hne : u.addr ≠ m.node := h.linked.ne_of_mem_eraseP_addr hu
  rw [htakes.fileT, Function.update_of_ne hne]
  exact hequipped u (List.mem_of_mem_eraseP hu)

theorem keepsRegular_eventLoop (h : Slots s) (hstep : Step s l s') : KeepsRegular s s' := by
  obtain ⟨-, hok⟩ := hstep
  rcases l with ⟨event, r⟩
  have handled : Handled s r event s' := handled_of_eventLoop hok
  cases handled with
  | acceptNewUser connfd =>
      refine .of_same ?_ ?_
      · exact enableBrokerCallback_save _
      · exact sameSaves_enableDmaCallback _
  | delDisconnectUser connfd _ hdel => exact keepsRegular_delUser hdel
  | openwrtConnected _ hconnected => exact keepsRegular_handleOpenwrtConnected hconnected
  | linkUp | linkUpIgnored | linkDown | linkDownIgnored | openwrtDisconnect | clearRssiNone
  | clearCsiNone | csiReadyDropped => exact .of_same rfl (.refl _)
  | inquiryRssi connfd ret broker hopen =>
      exact .of_same (openRssiStateExternal_nodes h.rssi hopen).2.1 (.refl _)
  | rssiReadyAndSend msg broker hsend =>
      exact .of_steady (.of_quiet (sendRssiToSave_slots h.rssi hsend).2.1) (.refl _) rfl
  | controlRssi connfd ret json broker server hsave =>
      exact .of_steady (steady_processRssiSaveFile hsave) (.refl _) rfl
  | clearRssi m ms broker hposted hclear =>
      obtain ⟨-, -, htakes, -⟩ := clearRssiWriteStatus_slots h.rssi hclear
      exact ⟨fun hflags => binaryFlags_of_takesAway htakes hflags, fun hflags => hflags,
        fun he => he⟩
  | startCsi connfd =>
      unfold handleStartCsi
      split
      · exact .of_same rfl (.refl _)
      · exact .of_same rfl (sameSaves_startCsiStateExternal _ _ _)
  | stopCsi connfd => exact .of_same rfl (sameSaves_stopCsiStateExternal _ _ _)
  | csiReady json dma hlength hsend =>
      obtain ⟨save, hloop, hsend⟩ := bind_eq_ok.mp hsend
      obtain rfl := Except.ok.inj hsend
      exact .of_steady (.refl _) (.of_quiet (quiet_sendToSave _ hloop).1) rfl
  | startConstellation connfd =>
      unfold handleStartConstellation
      split
      · exact .of_same rfl (.refl _)
      · exact .of_same rfl (sameSaves_startConstellationExternal _ _ _)
  | stopConstellation connfd => exact .of_same rfl (sameSaves_stopConstellationExternal _ _ _)
  | controlSaveIqData connfd ret json dma server hsave =>
      obtain ⟨hsteady, hequipped⟩ := steady_processCsiSaveFile hsave
      exact ⟨fun hflags => hflags, hsteady.flags, hequipped⟩
  | clearCsi m ms dma hposted hclear =>
      obtain ⟨hflags, hequipped⟩ := keepsRegular_clearCsi h.csi hclear
      exact ⟨fun hflags => hflags, hflags, hequipped⟩
  | rssiWriteThread k broker hwrite =>
      exact .of_steady (.of_fileT (rssiWriteThread_slots h.rssi hwrite).2.1) (.refl _) rfl
  | csiWriteThread k dma hwrite =>
      obtain ⟨save, hthread, hwrite⟩ := bind_eq_ok.mp hwrite
      obtain rfl := Except.ok.inj hwrite
      obtain ⟨-, hslots, -⟩ := writeThread_slotted h.csi.save hthread
      exact .of_steady (.refl _) (.of_fileT hslots) rfl

theorem Regular.step (h : Regular s) (hstep : Step s l s') : Regular s' := by
  obtain ⟨hrssi, hcsi, hequipped⟩ := keepsRegular_eventLoop h.slots hstep
  exact ⟨h.slots.step hstep, hrssi h.rssi, hcsi h.csi, hequipped h.equipped⟩

theorem regular_started (hs : Started s) : Regular s := by
  obtain ⟨openJson, closeJson, hbroker⟩ := hs.broker
  have hdma := hs.dma
  simp only [createDmaHandler, if_true, Option.some.injEq] at hdma
  refine ⟨slots_started hs, ?_, ?_, ?_⟩
  · rw [hbroker]
    intro n t hslot
    cases hslot
  · rw [← hdma]
    intro n t hslot
    cases hslot
  · rw [← hdma]
    intro u hu
    cases hu

theorem regular_reached {trs : List (Transition State Label)} (hs : Started s)
    (h : Run Step s trs s') : Regular s' := by
  have hkeep : ∀ a l b, Regular a → True → Step a l b → Regular b :=
    fun a l b ha _ hstep => ha.step hstep
  exact (h.invariant hkeep (regular_started hs) fun _ _ => trivial).2

end Sessions

end GwWeb.SteadySlots
