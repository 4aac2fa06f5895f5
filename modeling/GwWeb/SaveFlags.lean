import GwWeb.SaveDesks

/-!
Whether the save flags of a session say that its save nodes record.
-/

namespace GwWeb.SaveFlags

open FlaggedNodes
open TransitionRuns
open GwWeb.WebCommon
open GwWeb.Server
open GwWeb.MosquittoBroker
open GwWeb.DmaHandler
open GwWeb.EventProcess
open GwWeb.WriteSlots
open GwWeb.SaveNodes
open GwWeb.SaveIsolation
open GwWeb.SlottedNodes
open GwWeb.SlotRuns

/-- What `inform_stop_rssi_write_thread` pushes for this node goes to a queue that
was made and not destroyed. -/
def PushesToQueue (w : WriteComponent) (node : Option UserNode) : Prop :=
  ∃ u ∈ node, ∃ t ∈ w.fileT u.addr, ∃ q ∈ t.queue, (w.recording q).queue.isSome = true

/-- What the save flags are to say, and what it is for. -/
structure SaveFlagsMatch (s : State) : Prop where
  rssi : ∀ n ∈ s.server.userSessionNodeHead,
    n.recordAction.enableRssiSave ≠ 0 ↔ Records s.broker.save (findNode n.connfd s.broker)
  csi : ∀ n ∈ s.server.userSessionNodeHead,
    n.recordAction.enableCsiSave ≠ 0 ↔ Records s.dma.save (findCsiSaveUserNode n.connfd s.dma)
  rssiStop : ∀ n ∈ s.server.userSessionNodeHead, n.recordAction.enableRssiSave ≠ 0 →
    PushesToQueue s.broker.save (findNode n.connfd s.broker)
  csiStop : ∀ n ∈ s.server.userSessionNodeHead, n.recordAction.enableCsiSave ≠ 0 →
    PushesToQueue s.dma.save (findCsiSaveUserNode n.connfd s.dma)

def sessionsWith (connfd : Int) (g : GServerPara) : Nat :=
  g.userSessionNodeHead.countP fun n => n.connfd = connfd

/-- Nothing is recorded under this `connfd`. -/
def Unrecorded (connfd : Int) (s : State) : Prop :=
  ¬ Records s.broker.save (findNode connfd s.broker) ∧
    ¬ Records s.dma.save (findCsiSaveUserNode connfd s.dma)

/-- The flag of an RSSI save request will be right: its node records already, or
it is stopped, or it is started and has one session if it does start. -/
def RssiFits (opCmd : Int) (r : SaveReplies) (records : Prop) (sessions : Nat) : Prop :=
  records ∨ opCmd = 0 ∨ opCmd = 1 ∧ (r.fopen = true ∧ r.tinyQueueCreate = true → sessions = 1)

/-- The same for a CSI save request, which sets its flag also when the start
fails. -/
def CsiFits (opCmd : Int) (r : SaveReplies) (records : Prop) (sessions : Nat) : Prop :=
  records ∨ opCmd = 0 ∨ opCmd = 1 ∧ (r.fopen = true ∧ r.tinyQueueCreate = true) ∧ sessions = 1

/-- `fits` holds of the command in a request of the given type. -/
def OpCmd (type : Int) (json : CJson) (fits : Int → Prop) : Prop :=
  match valueint json "type", valueint json "op_cmd" with
  | .ok itemType, .ok opCmd => itemType = type → fits opCmd
  | _, _ => True

/-- The condition on one event. -/
def KeepsFlags (s : State) (l : Label) : Prop :=
  match l.event with
  | .acceptNewUser connfd => Unrecorded connfd s
  | .openwrtConnected =>
      s.server.openwrtLink = 0 ∨ l.replies.eventfdWrite = -1 ∨
        Unrecorded s.server.openwrtConnfd s
  | .controlRssi connfd json =>
      OpCmd typeRssiControl json fun opCmd =>
        findNode connfd s.broker ≠ none →
        RssiFits opCmd l.replies.save (Records s.broker.save (findNode connfd s.broker))
          (sessionsWith connfd s.server)
  | .controlSaveIqData connfd json =>
      OpCmd typeControlSaveCsi json fun opCmd =>
        CsiFits opCmd l.replies.save (Records s.dma.save (findCsiSaveUserNode connfd s.dma))
          (sessionsWith connfd s.server)
  | .clearRssiWriteStatus => ∀ m ∈ s.broker.save.posted.head?, ¬ Runs s.broker.save m.node
  | .clearCsiWriteStatus => ∀ m ∈ s.dma.save.posted.head?, ¬ Runs s.dma.save m.node
  | _ => True

/-- The flag that a save request sets. -/
def requested (opCmd : Int) : Int := if opCmd = 0 then 0 else if opCmd = 1 then 1 else -1

section Commands

variable {w w' : WriteComponent} {already opCmd ret : Int} {reply : SaveReplies} {n k : Nat}

theorem runs_of_ret_ne (h : Commanded already n opCmd reply ret w w')
    (hret : ret ≠ 0) : Runs w' n ↔ Runs w n := by
  obtain ⟨-, hstop, hstart, hother⟩ := h
  rcases eq_or_ne opCmd 0 with rfl | hzero
  · obtain ⟨hidle, hfailed⟩ := hstop rfl
    exact iff_of_false hidle (hfailed.resolve_left hret).2
  · rcases eq_or_ne opCmd 1 with rfl | hone
    · obtain ⟨hruns, -, hidle⟩ := hstart rfl
      by_cases hrun : Runs w n
      · exact hruns.trans (iff_of_true (.inl hrun) hrun)
      · rw [hruns]
        exact iff_of_false (not_or.mpr ⟨hrun, fun hok => hret ((hidle hrun).mpr hok)⟩) hrun
    · exact absurd (hother hzero hone).1 hret

theorem rssiFits_of_ret_ne (h : Commanded (-1) n opCmd reply ret w w') (hret : ret ≠ 0) :
    RssiFits opCmd reply (Runs w n) k := by
  obtain ⟨-, -, hstart, hother⟩ := h
  by_cases hrun : Runs w n
  · exact .inl hrun
  rcases eq_or_ne opCmd 0 with hzero | hzero
  · exact .inr (.inl hzero)
  · rcases eq_or_ne opCmd 1 with rfl | hone
    · exact .inr (.inr ⟨rfl, fun hok => absurd (((hstart rfl).2.2 hrun).mpr hok) hret⟩)
    · exact absurd (hother hzero hone).1 hret

theorem rssiFits_iff (h : Commanded (-1) n opCmd reply 0 w w') (hone : Runs w n → k = 1) :
    RssiFits opCmd reply (Runs w n) k ↔
      (requested opCmd ≠ 0 ↔ Runs w' n) ∧ (Runs w' n → k = 1) := by
  obtain ⟨-, hstop, hstart, hother⟩ := h
  unfold RssiFits requested
  rcases eq_or_ne opCmd 0 with rfl | hzero
  · simp [(hstop rfl).1]
  · rcases eq_or_ne opCmd 1 with rfl | hne
    · obtain ⟨hruns, hbusy, hidle⟩ := hstart rfl
      have hrun : ¬ Runs w n := fun hrun => absurd (hbusy hrun) (by decide)
      have hok := (hidle hrun).mp rfl
      have hruns' := hruns.mpr (.inr hok)
      simp [hrun, hok, hruns']
    · rw [(hother hzero hne).2]
      simp only [hzero, hne, if_false, false_and, or_false]
      exact ⟨fun hrun => ⟨by simp [hrun], hone⟩, fun h => h.1.mp (by decide)⟩

theorem csiFits_iff (h : Commanded 0 n opCmd reply ret w w') (hone : Runs w n → k = 1) :
    CsiFits opCmd reply (Runs w n) k ↔
      (requested opCmd ≠ 0 ↔ Runs w' n) ∧ (Runs w' n → k = 1) := by
  obtain ⟨-, hstop, hstart, hother⟩ := h
  unfold CsiFits requested
  rcases eq_or_ne opCmd 0 with rfl | hzero
  · simp [(hstop rfl).1]
  · rcases eq_or_ne opCmd 1 with rfl | hne
    · rw [(hstart rfl).1]
      by_cases hrun : Runs w n
      · simp [hrun, hone hrun]
      · by_cases hok : reply.fopen = true ∧ reply.tinyQueueCreate = true
        · simp [hrun, hok]
        · simp [hrun, hok]
    · rw [(hother hzero hne).2]
      simp only [hzero, hne, if_false, false_and, or_false]
      exact ⟨fun hrun => ⟨by simp [hrun], hone⟩, fun h => h.1.mp (by decide)⟩

end Commands

section Steps

variable {s s' : State} {l : Label} {r : Replies} {connfd : Int} {guard : Prop}

/-- Both save flags are right, in slots that are right. -/
structure Flagged (s : State) : Prop where
  slots : Slots s
  rssi : (rssiDesk s).Kept
  csi : (csiDesk s).Kept

theorem pushesToQueue_of_records {w : WriteComponent} {allocated : Nat} (h : Slotted w allocated)
    {node : Option UserNode} (hrecords : Records w node) : PushesToQueue w node := by
  obtain ⟨u, hu, t, ht, -, hqueue⟩ := hrecords
  obtain ⟨q, hq⟩ := Option.isSome_iff_exists.mp hqueue
  exact ⟨u, hu, t, ht, q, hq, (h.queue u.addr t q ht hq).2.2⟩

theorem saveFlagsMatch_iff (h : Slots s) :
    SaveFlagsMatch s ↔ (rssiDesk s).Matched ∧ (csiDesk s).Matched := by
  unfold rssiDesk csiDesk
  rw [matched_desk, matched_desk]
  constructor
  · exact fun hmatch => ⟨hmatch.rssi, hmatch.csi⟩
  · rintro ⟨hrssi, hcsi⟩
    refine ⟨hrssi, hcsi, ?_, ?_⟩
    · intro n hn hflag
      exact pushesToQueue_of_records h.rssi.save ((hrssi n hn).mp hflag)
    · intro n hn hflag
      exact pushesToQueue_of_records h.csi.save ((hcsi n hn).mp hflag)

/-- Behind an event the flags are right exactly if `guard` held, and then the
invariants hold too. -/
structure KeptExactly (guard : Prop) (s' : State) : Prop where
  keep : guard → (rssiDesk s').Kept ∧ (csiDesk s').Kept
  only : (rssiDesk s').Matched → (csiDesk s').Matched → guard

theorem KeptExactly.of_kept (hguard : guard) (hrssi : (rssiDesk s').Kept)
    (hcsi : (csiDesk s').Kept) : KeptExactly guard s' :=
  ⟨fun _ => ⟨hrssi, hcsi⟩, fun _ _ => hguard⟩

theorem KeptExactly.of_iff {guard' : Prop} (h : KeptExactly guard' s') (hiff : guard ↔ guard') :
    KeptExactly guard s' := by
  rwa [propext hiff]

theorem unrecorded_iff :
    Unrecorded connfd s ↔ ¬ (rssiDesk s).Saves connfd ∧ ¬ (csiDesk s).Saves connfd := by
  unfold rssiDesk csiDesk
  rw [saves_desk, saves_desk]
  rfl

theorem keptExactly_enter (h : Flagged s) (hrssi : rssiDesk s' = (rssiDesk s).enter connfd)
    (hcsi : csiDesk s' = (csiDesk s).enter connfd) : KeptExactly (Unrecorded connfd s) s' := by
  refine KeptExactly.of_iff ?_ unrecorded_iff
  refine ⟨fun hidle => ?_, fun hmatched hmatched' => ⟨fun hsaves => ?_, fun hsaves => ?_⟩⟩
  · rw [hrssi, hcsi]
    exact ⟨h.rssi.enter hidle.1, h.csi.enter hidle.2⟩
  · exact Desk.not_matched_enter hsaves (hrssi ▸ hmatched)
  · exact Desk.not_matched_enter hsaves (hcsi ▸ hmatched')

theorem keptExactly_openwrtConnected (h : Flagged s) (hok : handleOpenwrtConnected r s = .ok s') :
    KeptExactly (KeepsFlags s ⟨.openwrtConnected, r⟩) s' := by
  have hrssi : rssiDesk { s with
      server := addNewUserNodeToList s.server.openwrtConnfd s.server } =
      (rssiDesk s).enter s.server.openwrtConnfd := desk_enter rfl s.server
  have hcsi : csiDesk { s with
      server := addNewUserNodeToList s.server.openwrtConnfd s.server } =
      (csiDesk s).enter s.server.openwrtConnfd := desk_enter rfl s.server
  cases handleOpenwrtConnected_connected h.slots hok with
  | linkIsDown hlink => exact .of_kept (.inl hlink) h.rssi h.csi
  | entered hlink hwrite =>
      refine (keptExactly_enter h (rssiDesk_enableBrokerCallback.trans hrssi) hcsi).of_iff ?_
      simp [KeepsFlags, hlink, hwrite]
  | left n s₂ hlink hwrite hgone =>
      obtain ⟨hleave, hleave'⟩ := leaves_of_gone hgone
      have hfirst := first_flag RecordAction.enableRssiSave s.broker.rssiUserNodeHead
        s.broker.save hgone.found
      have hfirst' := first_flag RecordAction.enableCsiSave s.dma.csiSaveUserNodeHead
        s.dma.save hgone.found
      refine .of_kept (.inr (.inl hwrite)) ?_ (h.csi.enter_leave (hcsi ▸ hleave') ?_)
      · rw [rssiDesk_enableBrokerCallback]
        exact h.rssi.enter_leave (hrssi ▸ hleave) (by rw [← hrssi]; exact hfirst)
      · rw [← hcsi]
        exact hfirst'

theorem keptExactly_inquiryRssi {ret : Int} {broker : GBrokerPara} (h : Flagged s)
    (hopen : openRssiStateExternal connfd r.transfer s.broker = .ok (ret, broker)) :
    KeptExactly True { s with
      broker
      server := if ret = 0 then recordRssiEnable connfd s.server else s.server } := by
  obtain ⟨-, hsave, -, hnodes⟩ := openRssiStateExternal_nodes h.slots.rssi hopen
  have hflags : ∀ (flag : RecordAction → Int) (nodes : List UserNode) (w : WriteComponent),
      (∀ a : RecordAction, flag { a with enableRssi := 1 } = flag a) →
      desk flag (if ret = 0 then recordRssiEnable connfd s.server else s.server).userSessionNodeHead
        nodes w = desk flag s.server.userSessionNodeHead nodes w := by
    intro flag nodes w hsame
    split
    · exact flags_recordAction_same _ hsame s.server
    · rfl
  refine .of_kept trivial ?_ ?_
  · unfold rssiDesk
    rw [hflags _ _ _ fun _ => rfl, hsave]
    rcases hnodes with ⟨hnodes, -⟩ | ⟨hnodes, -⟩
    · rw [hnodes]
      exact h.rssi
    · rw [hnodes, desk_append]
      refine h.rssi.append ?_ (not_runs_of_none (h.slots.rssi.save.fresh _ (Nat.le_refl _)))
      intro hmem
      simp only [rssiDesk, desk, List.map_map, List.mem_map] at hmem
      obtain ⟨n, hn, heq⟩ := hmem
      exact Nat.ne_of_lt (h.slots.rssi.linked.valid n hn).1 heq
  · unfold csiDesk
    rw [hflags _ _ _ fun _ => rfl]
    exact h.csi

def setRssiSave (v : Int) (a : RecordAction) : RecordAction := { a with enableRssiSave := v }

def setCsiSave (v : Int) (a : RecordAction) : RecordAction := { a with enableCsiSave := v }

theorem recordSaveEnable_ok {root : CJson} {g g' : GServerPara} {opCmd : Int} :
    (recordRssiSaveEnable connfd root g = .ok g' → valueint root "type" = .ok typeRssiControl →
      valueint root "op_cmd" = .ok opCmd →
      g' = recordAction connfd (setRssiSave (requested opCmd)) g) ∧
    (recordCsiSaveEnable connfd root g = .ok g' → valueint root "type" = .ok typeControlSaveCsi →
      valueint root "op_cmd" = .ok opCmd →
      g' = recordAction connfd (setCsiSave (requested opCmd)) g) := by
  constructor
  all_goals
    intro hok htype hcmd
    obtain ⟨flag, hflag, hok⟩ := bind_eq_ok.mp hok
    simp only [saveFlag, htype, hcmd, bind, Except.bind, ne_eq, not_true, if_false] at hflag
    obtain rfl := Except.ok.inj hflag
    exact (Except.ok.inj hok).symm

theorem opCmd_of_imp {type : Int} {json : CJson} {fits : Int → Prop}
    (h : valueint json "type" = .ok type → ∀ opCmd, fits opCmd) : OpCmd type json fits := by
  unfold OpCmd
  split
  · rename_i htype hcmd
    rintro rfl
    exact h htype _
  · trivial

/-- Behind a command that sets its flag, the flags are right exactly if that one
is and no other session shares it. -/
theorem switched (guard : Prop) {d d' : Desk Int Nat} {v : Int} {b : Prop} (h : d.Kept)
    (hs : Desk.Switches connfd v b d d') {x : Int × Nat} (hx : d.find connfd = some x)
    (hlisted : connfd ∈ d.flags.map Prod.fst)
    (hiff : guard ↔ (v ≠ 0 ↔ b) ∧ (b → d.sessions connfd = 1)) :
    (guard → d'.Kept) ∧ (d'.Matched → guard) := by
  rw [hiff]
  exact ⟨fun hfits => h.switch hs hx hfits.1 hfits.2, h.switch_of_matched hs hx hlisted⟩

theorem keptExactly_controlRssi {ret : Int} {json : CJson} {broker : GBrokerPara}
    {server : GServerPara} (h : Flagged s) (hin : connfd ∈ sessionConnfds s.server)
    (hsave : processRssiSaveFile connfd json r.save s.broker = .ok (ret, broker))
    (hrecord : (if ret = 0 then recordRssiSaveEnable connfd json s.server else .ok s.server) =
      .ok server) :
    KeptExactly (KeepsFlags s ⟨.controlRssi connfd json, r⟩) { s with broker, server } := by
  rcases (processRssiSaveFile_slots h.slots.rssi hsave).2 with
    ⟨rfl, hret, hnone⟩ | ⟨n, opCmd, htype, hcmd, hn, hcommanded⟩
  · rw [if_neg hret] at hrecord
    obtain rfl := Except.ok.inj hrecord
    refine .of_kept (opCmd_of_imp fun hright _ hne => absurd (hnone hright) hne) h.rssi h.csi
  · have hnodes : broker.rssiUserNodeHead = s.broker.rssiUserNodeHead := by
      obtain ⟨save, rfl⟩ := processRssiSaveFile_ok hsave
      rfl
    have hguard : KeepsFlags s ⟨.controlRssi connfd json, r⟩ ↔
        RssiFits opCmd r.save (Runs s.broker.save n.addr) (sessionsWith connfd s.server) := by
      simp only [KeepsFlags, OpCmd, htype, hcmd, hn, records_some, ne_eq, reduceCtorEq,
        not_false_iff, forall_const]
    have hothers : ∀ a, a ≠ n.addr → (Runs broker.save a ↔ Runs s.broker.save a) :=
      fun a ha => runs_congr (hcommanded.starts.slots a ha)
    by_cases hret : ret = 0
    · subst hret
      rw [if_pos rfl] at hrecord
      obtain rfl := recordSaveEnable_ok.1 hrecord htype hcmd
      have hcsi : csiDesk { s with
          broker, server := recordAction connfd (setRssiSave (requested opCmd)) s.server } =
          csiDesk s :=
        flags_recordAction_same (setRssiSave _) (fun _ => rfl) s.server
      have hs : Desk.Switches connfd (requested opCmd) (Runs broker.save n.addr) (rssiDesk s)
          (rssiDesk { s with
            broker, server := recordAction connfd (setRssiSave (requested opCmd)) s.server }) := by
        unfold rssiDesk
        rw [hnodes]
        exact desk_switches (setRssiSave _) (fun _ => rfl) s.server hn hothers
      have hone : Runs s.broker.save n.addr → sessionsWith connfd s.server = 1 := by
        intro hrun
        have hsingle := h.rssi.sessions_of_saves ((saves_desk connfd).mpr ⟨n, hn, hrun⟩)
        rwa [rssiDesk, sessions_desk] at hsingle
      have hiff := hguard.trans (rssiFits_iff hcommanded hone)
      obtain ⟨hkeep, honly⟩ := switched (KeepsFlags s ⟨.controlRssi connfd json, r⟩) h.rssi hs
        (find_desk_eq_some.mpr ⟨n, hn, rfl⟩) (flags_listed hin)
        (by rwa [rssiDesk, sessions_desk])
      exact ⟨fun hfits => ⟨hkeep hfits, hcsi.symm ▸ h.csi⟩, fun hmatched _ => honly hmatched⟩
    · rw [if_neg hret] at hrecord
      obtain rfl := Except.ok.inj hrecord
      refine .of_kept (hguard.mpr (rssiFits_of_ret_ne hcommanded hret)) ?_ h.csi
      unfold rssiDesk
      rw [hnodes, desk_congr fun a => ?_]
      · exact h.rssi
      · rcases eq_or_ne a n.addr with rfl | ha
        · exact runs_of_ret_ne hcommanded hret
        · exact hothers a ha

theorem keptExactly_controlSaveIqData {ret : Int} {json : CJson} {dma : GDmaPara}
    {server : GServerPara} (h : Flagged s) (hin : connfd ∈ sessionConnfds s.server)
    (hsave : processCsiSaveFile connfd json r.save s.dma = .ok (ret, dma))
    (hrecord : recordCsiSaveEnable connfd json s.server = .ok server) :
    KeptExactly (KeepsFlags s ⟨.controlSaveIqData connfd json, r⟩) { s with dma, server } := by
  rcases (processCsiSaveFile_slots h.slots.csi hsave).2 with
    ⟨rfl, hother⟩ | ⟨n, opCmd, htype, hcmd, hconnfd, hcommanded, hcases⟩
  · have hsame : server = s.server := by
      obtain ⟨flag, hflag, hrecord⟩ := bind_eq_ok.mp hrecord
      obtain ⟨type, htype, hflag⟩ := bind_eq_ok.mp hflag
      rw [if_pos fun heq => hother (htype.trans (congrArg _ heq))] at hflag
      obtain rfl := Except.ok.inj hflag
      exact (Except.ok.inj hrecord).symm
    rw [hsame]
    exact .of_kept (opCmd_of_imp fun hright => absurd hright hother) h.rssi h.csi
  · obtain rfl := recordSaveEnable_ok.2 hrecord htype hcmd
    have hothers : ∀ a, a ≠ n.addr → (Runs dma.save a ↔ Runs s.dma.save a) :=
      fun a ha => runs_congr (hcommanded.starts.slots a ha)
    have hrssi : rssiDesk { s with
        dma, server := recordAction connfd (setCsiSave (requested opCmd)) s.server } =
        rssiDesk s :=
      flags_recordAction_same (setCsiSave _) (fun _ => rfl) s.server
    -- a new node is put on the list before its command
    obtain ⟨hkept, hfind, hrecords⟩ : (desk RecordAction.enableCsiSave s.server.userSessionNodeHead
          dma.csiSaveUserNodeHead s.dma.save).Kept ∧
        (dma.csiSaveUserNodeHead.find? fun n => n.connfd = connfd) = some n ∧
        (Records s.dma.save (findCsiSaveUserNode connfd s.dma) ↔ Runs s.dma.save n.addr) := by
      rcases hcases with ⟨hfound, hnodes⟩ | ⟨hnone, haddr, hnodes⟩
      · rw [hnodes, hfound]
        exact ⟨h.csi, hfound, records_some n⟩
      · have hidle : ¬ Runs s.dma.save n.addr :=
          not_runs_of_none (h.slots.csi.save.fresh _ (Nat.le_of_eq haddr.symm))
        rw [hnodes, hnone, desk_append]
        refine ⟨h.csi.append ?_ hidle, ?_, iff_of_false (by simp [Records]) hidle⟩
        · intro hmem
          simp only [csiDesk, desk, List.map_map, List.mem_map] at hmem
          obtain ⟨u, hu, heq⟩ := hmem
          exact Nat.ne_of_lt (h.slots.csi.linked.valid u hu).1 (heq.trans haddr)
        · have hnone : (s.dma.csiSaveUserNodeHead.find? fun n => n.connfd = connfd) = none :=
            hnone
          rw [List.find?_append, hnone]
          simp [hconnfd]
    have hs : Desk.Switches connfd (requested opCmd) (Runs dma.save n.addr)
        (desk RecordAction.enableCsiSave s.server.userSessionNodeHead dma.csiSaveUserNodeHead
          s.dma.save)
        (csiDesk { s with
          dma, server := recordAction connfd (setCsiSave (requested opCmd)) s.server }) :=
      desk_switches (setCsiSave _) (fun _ => rfl) s.server hfind hothers
    have hone : Runs s.dma.save n.addr → sessionsWith connfd s.server = 1 := by
      intro hrun
      have hsingle := hkept.sessions_of_saves ((saves_desk connfd).mpr ⟨n, hfind, hrun⟩)
      rwa [sessions_desk] at hsingle
    have hguard : KeepsFlags s ⟨.controlSaveIqData connfd json, r⟩ ↔
        CsiFits opCmd r.save (Runs s.dma.save n.addr) (sessionsWith connfd s.server) := by
      simp only [KeepsFlags, OpCmd, htype, hcmd, hrecords, forall_const]
    have hiff := hguard.trans (csiFits_iff hcommanded hone)
    obtain ⟨hkeep, honly⟩ := switched (KeepsFlags s ⟨.controlSaveIqData connfd json, r⟩) hkept hs
      (find_desk_eq_some.mpr ⟨n, hfind, rfl⟩) (flags_listed hin) (by rwa [sessions_desk])
    exact ⟨fun hfits => ⟨hrssi.symm ▸ h.rssi, hkeep hfits⟩, fun _ hmatched => honly hmatched⟩

theorem keptExactly_clearRssi {m : ClearStatus} {ms : List ClearStatus} {broker : GBrokerPara}
    (h : Flagged s) (hposted : s.broker.save.posted = m :: ms)
    (hclear : clearRssiWriteStatus m.node
      { s.broker with save := { s.broker.save with posted := ms } } = .ok broker) :
    KeptExactly (KeepsFlags s ⟨.clearRssiWriteStatus, r⟩) { s with broker } := by
  obtain ⟨-, -, htakes, hbroker⟩ := clearRssiWriteStatus_slots h.slots.rssi hclear
  have hclears : Desk.Clears m.node (rssiDesk s) (rssiDesk { s with broker }) := by
    refine clears_desk (.inl ?_) fun b => htakes.runs b
    rw [hbroker]
  have hguard : KeepsFlags s ⟨.clearRssiWriteStatus, r⟩ ↔ ¬ Runs s.broker.save m.node := by
    simp [KeepsFlags, hposted]
  refine KeptExactly.of_iff ⟨fun hidle => ⟨h.rssi.clear hclears hidle, h.csi⟩, ?_⟩ hguard
  exact fun hmatched _ hrun => h.rssi.not_matched_clear hclears hrun hmatched

theorem keptExactly_clearCsi {m : ClearStatus} {ms : List ClearStatus} {dma : GDmaPara}
    (h : Flagged s) (hposted : s.dma.save.posted = m :: ms)
    (hclear : clearCsiWriteStatus m.node
      { s.dma with save := { s.dma.save with posted := ms } } = .ok dma) :
    KeptExactly (KeepsFlags s ⟨.clearCsiWriteStatus, r⟩) { s with dma } := by
  obtain ⟨-, htakes, hnodes⟩ := clearCsiWriteStatus_slots h.slots.csi hclear
  have hclears : Desk.Clears m.node (csiDesk s) (csiDesk { s with dma }) :=
    clears_desk (.inr hnodes) fun b => htakes.runs b
  have hguard : KeepsFlags s ⟨.clearCsiWriteStatus, r⟩ ↔ ¬ Runs s.dma.save m.node := by
    simp [KeepsFlags, hposted]
  refine KeptExactly.of_iff ⟨fun hidle => ⟨h.rssi, h.csi.clear hclears hidle⟩, ?_⟩ hguard
  exact fun _ hmatched hrun => h.csi.not_matched_clear hclears hrun hmatched

theorem keptExactly_sameSaves {dma : GDmaPara} {server : GServerPara} (h : Flagged s)
    (hsame : SameSaves s.dma dma)
    (hserver : server = s.server ∨ ∃ (connfd : Int) (f : RecordAction → RecordAction),
      (∀ a, (f a).enableRssiSave = a.enableRssiSave) ∧
      (∀ a, (f a).enableCsiSave = a.enableCsiSave) ∧ server = recordAction connfd f s.server) :
    KeptExactly True { s with dma, server } := by
  have hdesks : rssiDesk { s with dma, server } = rssiDesk s ∧
      csiDesk { s with dma, server } = csiDesk s := by
    unfold rssiDesk csiDesk
    dsimp only
    rw [hsame.nodes, hsame.save]
    rcases hserver with rfl | ⟨connfd, f, hrssi, hcsi, rfl⟩
    · exact ⟨rfl, rfl⟩
    · exact ⟨flags_recordAction_same f hrssi _, flags_recordAction_same f hcsi _⟩
  exact .of_kept trivial (hdesks.1.symm ▸ h.rssi) (hdesks.2.symm ▸ h.csi)

theorem keptExactly_eventLoop (h : Flagged s) (hstep : Step s l s') :
    KeptExactly (KeepsFlags s l) s' := by
  obtain ⟨hin, hok⟩ := hstep
  rcases l with ⟨event, r⟩
  have handled : Handled s r event s' := handled_of_eventLoop hok
  cases handled with
  | acceptNewUser connfd =>
      let s₁ : State := { s with server := addNewUserNodeToList connfd s.server }
      have hrssi : rssiDesk s₁ = (rssiDesk s).enter connfd := desk_enter rfl s.server
      have hcsi : csiDesk s₁ = (csiDesk s).enter connfd := desk_enter rfl s.server
      refine keptExactly_enter h (Eq.trans ?_ hrssi) (Eq.trans ?_ hcsi)
      · exact rssiDesk_enableBrokerCallback (s := s₁)
      · exact csiDesk_enableDmaCallback (s := enableBrokerCallback s₁)
  | delDisconnectUser connfd _ hdel =>
      obtain ⟨n, hgone⟩ :=
        delUser_gone h.slots.kept h.slots.rssi h.slots.csi (hin connfd rfl) hdel
      obtain ⟨hrssi, hcsi⟩ := kept_gone h.rssi h.csi hgone
      exact .of_kept trivial hrssi hcsi
  | linkUp | linkUpIgnored | linkDown | linkDownIgnored => exact .of_kept trivial h.rssi h.csi
  | openwrtConnected _ hconnected => exact keptExactly_openwrtConnected h hconnected
  | openwrtDisconnect => exact .of_kept trivial h.rssi h.csi
  | inquiryRssi connfd ret broker hopen => exact keptExactly_inquiryRssi h hopen
  | rssiReadyAndSend msg broker hsend =>
      obtain ⟨-, -, hruns⟩ := sendRssiToSave_slots h.slots.rssi hsend
      obtain ⟨save, rfl⟩ := sendRssiToSave_ok hsend
      refine .of_kept trivial ?_ h.csi
      unfold rssiDesk
      rw [desk_congr hruns]
      exact h.rssi
  | controlRssi connfd ret json broker server hsave hrecord =>
      exact keptExactly_controlRssi h (hin connfd rfl) hsave hrecord
  | clearRssiNone hposted => exact .of_kept (by simp [KeepsFlags, hposted]) h.rssi h.csi
  | clearRssi m ms broker hposted hclear => exact keptExactly_clearRssi h hposted hclear
  | startCsi connfd =>
      have hsame := sameSaves_startCsiStateExternal connfd r.start s.dma
      unfold handleStartCsi
      generalize startCsiStateExternal connfd r.start s.dma = out at hsame ⊢
      split
      · exact .of_kept trivial h.rssi h.csi
      · refine keptExactly_sameSaves h hsame ?_
        split
        · exact .inr ⟨connfd, fun a => { a with enableStartCsi := 1 }, fun _ => rfl,
            fun _ => rfl, rfl⟩
        · exact .inl rfl
  | stopCsi connfd =>
      exact keptExactly_sameSaves h (sameSaves_stopCsiStateExternal connfd r.stopCsi s.dma)
        (.inr ⟨connfd, fun a => { a with enableStartCsi := 0 }, fun _ => rfl, fun _ => rfl, rfl⟩)
  | csiReadyDropped => exact .of_kept trivial h.rssi h.csi
  | csiReady json dma hlength hsend =>
      have hcopied : CsiSlotted (processCSI json s.dma) :=
        ⟨h.slots.csi.save, h.slots.csi.linked, h.slots.csi.bounded⟩
      obtain ⟨-, -, hruns⟩ := sendCsiToSave_slots hcopied hsend
      obtain ⟨save, rfl⟩ := sendCsiToSave_ok hsend
      refine .of_kept trivial h.rssi ?_
      unfold csiDesk
      rw [desk_congr hruns]
      exact h.csi
  | startConstellation connfd =>
      unfold handleStartConstellation
      split
      · exact .of_kept trivial h.rssi h.csi
      · exact keptExactly_sameSaves h
          (sameSaves_startConstellationExternal connfd r.start s.dma)
          (.inr ⟨connfd, fun a => { a with enableStartConstell := 1 }, fun _ => rfl,
            fun _ => rfl, rfl⟩)
  | stopConstellation connfd =>
      exact keptExactly_sameSaves h
        (sameSaves_stopConstellationExternal connfd r.stopConstellation s.dma)
        (.inr ⟨connfd, fun a => { a with enableStartConstell := 0 }, fun _ => rfl,
          fun _ => rfl, rfl⟩)
  | controlSaveIqData connfd ret json dma server hsave hrecord =>
      exact keptExactly_controlSaveIqData h (hin connfd rfl) hsave hrecord
  | clearCsiNone hposted => exact .of_kept (by simp [KeepsFlags, hposted]) h.rssi h.csi
  | clearCsi m ms dma hposted hclear => exact keptExactly_clearCsi h hposted hclear
  | rssiWriteThread k broker hwrite =>
      obtain ⟨-, hslots, -⟩ := rssiWriteThread_slots h.slots.rssi hwrite
      obtain ⟨save, rfl⟩ := rssiWriteThread_ok hwrite
      refine .of_kept trivial ?_ h.csi
      unfold rssiDesk
      rw [desk_congr fun a => runs_congr (congrFun hslots a)]
      exact h.rssi
  | csiWriteThread k dma hwrite =>
      obtain ⟨-, hslots⟩ := csiWriteThread_slots h.slots.csi hwrite
      obtain ⟨save, rfl⟩ := csiWriteThread_ok hwrite
      refine .of_kept trivial h.rssi ?_
      unfold csiDesk
      rw [desk_congr fun a => runs_congr (congrFun hslots a)]
      exact h.csi

end Steps

theorem Flagged.step {s s' : State} {l : Label} (h : Flagged s) (hguard : KeepsFlags s l)
    (hstep : Step s l s') : Flagged s' := by
  obtain ⟨hrssi, hcsi⟩ := (keptExactly_eventLoop h hstep).keep hguard
  exact ⟨h.slots.step hstep, hrssi, hcsi⟩

theorem Flagged.saveFlagsMatch {s : State} (h : Flagged s) : SaveFlagsMatch s :=
  (saveFlagsMatch_iff h.slots).mpr ⟨h.rssi.matched, h.csi.matched⟩

theorem flagged_started {s : State} (hs : Started s) : Flagged s := by
  obtain ⟨openJson, closeJson, hbroker⟩ := hs.broker
  have hdma := hs.dma
  simp only [createDmaHandler, if_true, Option.some.injEq] at hdma
  have hempty : ∀ flag, (desk flag [] [] .empty).Kept := by
    intro flag
    refine ⟨by simp [Desk.Matched, desk], by simp [desk], fun a hrun => ?_⟩
    obtain ⟨t, ht, -⟩ := hrun
    cases ht
  refine ⟨slots_started hs, ?_, ?_⟩
  · rw [rssiDesk, hs.server, hbroker]
    exact hempty _
  · rw [csiDesk, hs.server, ← hdma]
    exact hempty _

/-- The save flags are right in every state of a run exactly if every event of it
meets the condition. -/
theorem saveFlags_match_iff {s₀ s : State} {trs : List (Transition State Label)}
    (hs : Started s₀) (h : Run Step s₀ trs s) :
    SaveFlagsMatch s₀ ∧
      ((∀ tr ∈ trs, SaveFlagsMatch tr.after) ↔ ∀ tr ∈ trs, KeepsFlags tr.before tr.label) := by
  have hstarted := flagged_started hs
  have hkeep : ∀ a l b, Flagged a → KeepsFlags a l → Step a l b →
      Flagged b ∧ SaveFlagsMatch b := by
    intro a l b ha hguard hstep
    have hb := ha.step hguard hstep
    exact ⟨hb, hb.saveFlagsMatch⟩
  have hbreak : ∀ a l b, Flagged a → ¬ KeepsFlags a l → Step a l b → ¬ SaveFlagsMatch b := by
    intro a l b ha hguard hstep hmatch
    obtain ⟨hrssi, hcsi⟩ := (saveFlagsMatch_iff (ha.slots.step hstep)).mp hmatch
    exact hguard ((keptExactly_eventLoop ha hstep).only hrssi hcsi)
  exact ⟨hstarted.saveFlagsMatch, h.forall_good_iff hkeep hbreak hstarted⟩

instance (type : Int) (json : CJson) (fits : Int → Prop) [DecidablePred fits] :
    Decidable (OpCmd type json fits) :=
  match htype : valueint json "type", hcmd : valueint json "op_cmd" with
  | .ok itemType, .ok opCmd =>
      decidable_of_iff (itemType = type → fits opCmd) (by simp [OpCmd, htype, hcmd])
  | .error _, _ => isTrue (by simp [OpCmd, htype])
  | .ok _, .error _ => isTrue (by simp [OpCmd, htype, hcmd])

instance (opCmd : Int) (r : SaveReplies) (records : Prop) [Decidable records] (sessions : Nat) :
    Decidable (RssiFits opCmd r records sessions) :=
  inferInstanceAs (Decidable (_ ∨ _ ∨ _ ∧ (_ → _)))

instance (opCmd : Int) (r : SaveReplies) (records : Prop) [Decidable records] (sessions : Nat) :
    Decidable (CsiFits opCmd r records sessions) :=
  inferInstanceAs (Decidable (_ ∨ _ ∨ _ ∧ _ ∧ _))

instance (connfd : Int) (s : State) : Decidable (Unrecorded connfd s) :=
  inferInstanceAs (Decidable (_ ∧ _))

instance (s : State) (l : Label) : Decidable (KeepsFlags s l) :=
  match l with
  | ⟨.acceptNewUser connfd, _⟩ => inferInstanceAs (Decidable (Unrecorded connfd s))
  | ⟨.openwrtConnected, _⟩ => inferInstanceAs (Decidable (_ ∨ _ ∨ _))
  | ⟨.controlRssi _ _, _⟩ => inferInstanceAs (Decidable (OpCmd _ _ _))
  | ⟨.controlSaveIqData _ _, _⟩ => inferInstanceAs (Decidable (OpCmd _ _ _))
  | ⟨.clearRssiWriteStatus, _⟩ => inferInstanceAs (Decidable (∀ m ∈ _, _))
  | ⟨.clearCsiWriteStatus, _⟩ => inferInstanceAs (Decidable (∀ m ∈ _, _))
  | ⟨.delDisconnectUser _, _⟩ | ⟨.linkUp _, _⟩ | ⟨.linkDown, _⟩ | ⟨.openwrtDisconnect, _⟩
  | ⟨.inquiryRssi _, _⟩ | ⟨.rssiReadyAndSend _, _⟩ | ⟨.startCsi _, _⟩ | ⟨.stopCsi _, _⟩
  | ⟨.csiReady _, _⟩ | ⟨.startConstellation _, _⟩ | ⟨.stopConstellation _, _⟩
  | ⟨.rssiWriteThread _, _⟩ | ⟨.csiWriteThread _, _⟩ => isTrue trivial

/-- Connection 7 saves RSSI and fails to stop it twice, starts to save CSI, and
goes. -/
def saveAndLeave : List Label :=
  [⟨.acceptNewUser 7, .success⟩, ⟨.inquiryRssi 7, .success⟩,
    ⟨.controlRssi 7 (saveRequest 43 1 "a"), .success⟩, ⟨.rssiWriteThread 0, .success⟩,
    ⟨.controlRssi 7 (saveRequest 43 0 ""), .success⟩,
    ⟨.controlRssi 7 (saveRequest 43 0 ""), .success⟩, ⟨.rssiWriteThread 0, .success⟩,
    ⟨.rssiWriteThread 0, .success⟩, ⟨.clearRssiWriteStatus, .success⟩,
    ⟨.controlSaveIqData 7 (saveRequest 53 1 "b"), .success⟩, ⟨.delDisconnectUser 7, .success⟩]

theorem saveFlags_match_save_and_leave :
    ∃ trs s, Run Step (startState ⟨"dev", "1"⟩ ⟨"dev", "0"⟩) trs s ∧
      trs.map (fun tr => tr.label) = saveAndLeave ∧
      (∀ tr ∈ trs, KeepsFlags tr.before tr.label) ∧ ∀ tr ∈ trs, SaveFlagsMatch tr.after := by
  obtain ⟨trs, s, hs, hlabels⟩ :
      ∃ trs s,
        replay (surviveGuarded KeepsFlags) (startState ⟨"dev", "1"⟩ ⟨"dev", "0"⟩) saveAndLeave =
          some (trs, s) ∧ trs.map (fun tr => tr.label) = saveAndLeave :=
    ⟨_, _, rfl, rfl⟩
  have hrun : Run (fun a l b => KeepsFlags a l ∧ Step a l b) _ trs s :=
    run_of_replay (step_of_surviveGuarded KeepsFlags) hs
  have hsteps : Run Step _ trs s := hrun.mono fun _ _ _ h => h.2
  have hguard : ∀ tr ∈ trs, KeepsFlags tr.before tr.label :=
    fun tr htr => (hrun.step_of_mem htr).1
  exact ⟨trs, s, hsteps, hlabels, hguard,
    (saveFlags_match_iff (startState_started _ _) hsteps).2.mpr hguard⟩

/-- A CSI start whose file cannot be opened, and an RSSI request with an unknown
command, set flags of nodes that do not record. Then `del_user` pushes to a queue
that was never made. -/
theorem failed_start_not_match :
    (∃ trs s, Run Step (startState ⟨"dev", "1"⟩ ⟨"dev", "0"⟩) trs s ∧
      trs.map (fun tr => tr.label) =
        [⟨.acceptNewUser 7, .success⟩,
          ⟨.controlSaveIqData 7 (saveRequest 53 1 "a"), .failedOpen⟩] ∧
      ¬ SaveFlagsMatch s ∧ (delUser 7 .success s).toOption.isNone) ∧
    ∃ trs s, Run Step (startState ⟨"dev", "1"⟩ ⟨"dev", "0"⟩) trs s ∧
      trs.map (fun tr => tr.label) =
        [⟨.acceptNewUser 7, .success⟩, ⟨.inquiryRssi 7, .success⟩,
          ⟨.controlRssi 7 (saveRequest 43 2 "a"), .success⟩] ∧
      ¬ SaveFlagsMatch s ∧ (delUser 7 .success s).toOption.isNone := by
  constructor
  · obtain ⟨trs, s, hs, hlabels, n, hn, hflag, hidle, hcrash⟩ :
        ∃ trs s, replay survive (startState ⟨"dev", "1"⟩ ⟨"dev", "0"⟩)
            [⟨.acceptNewUser 7, .success⟩,
              ⟨.controlSaveIqData 7 (saveRequest 53 1 "a"), .failedOpen⟩] = some (trs, s) ∧
          trs.map (fun tr => tr.label) =
            [⟨.acceptNewUser 7, .success⟩,
              ⟨.controlSaveIqData 7 (saveRequest 53 1 "a"), .failedOpen⟩] ∧
          ∃ n, s.server.userSessionNodeHead = [n] ∧ n.recordAction.enableCsiSave = 1 ∧
            decide (Records s.dma.save (findCsiSaveUserNode n.connfd s.dma)) = false ∧
            (delUser 7 .success s).toOption.isNone :=
      ⟨_, _, rfl, rfl, _, rfl, rfl, rfl, rfl⟩
    refine ⟨trs, s, run_of_replay step_of_survive hs, hlabels, fun hmatch => ?_, hcrash⟩
    have hrecords := (hmatch.csi n (by simp [hn])).mp (by simp [hflag])
    exact of_decide_eq_false hidle hrecords
  · obtain ⟨trs, s, hs, hlabels, n, hn, hflag, hidle, hcrash⟩ :
        ∃ trs s, replay survive (startState ⟨"dev", "1"⟩ ⟨"dev", "0"⟩)
            [⟨.acceptNewUser 7, .success⟩, ⟨.inquiryRssi 7, .success⟩,
              ⟨.controlRssi 7 (saveRequest 43 2 "a"), .success⟩] = some (trs, s) ∧
          trs.map (fun tr => tr.label) =
            [⟨.acceptNewUser 7, .success⟩, ⟨.inquiryRssi 7, .success⟩,
              ⟨.controlRssi 7 (saveRequest 43 2 "a"), .success⟩] ∧
          ∃ n, s.server.userSessionNodeHead = [n] ∧ n.recordAction.enableRssiSave = -1 ∧
            decide (Records s.broker.save (findNode n.connfd s.broker)) = false ∧
            (delUser 7 .success s).toOption.isNone :=
      ⟨_, _, rfl, rfl, _, rfl, rfl, rfl, rfl⟩
    refine ⟨trs, s, run_of_replay step_of_survive hs, hlabels, fun hmatch => ?_, hcrash⟩
    have hrecords := (hmatch.rssi n (by simp [hn])).mp (by simp [hflag])
    exact of_decide_eq_false hidle hrecords

end GwWeb.SaveFlags
