import GwWeb.SaveCommands
import GwWeb.SaveIsolation

/-!
What a save command leaves behind that neither starts nor stops a recording.
-/

namespace GwWeb.SaveTraces

open TransitionRuns
open GwWeb.WebCommon
open GwWeb.MosquittoBroker
open GwWeb.DmaHandler
open GwWeb.EventProcess
open GwWeb.SaveCommands
open GwWeb.SaveIsolation

/-- A write thread starts. -/
def Launches (w w' : WriteComponent) : Prop :=
  ∃ k, w.starts ≤ k ∧ k < w'.starts ∧ (w'.recording k).writer.isSome = true

/-- A terminator is queued. -/
def QueuesTerminator (w w' : WriteComponent) : Prop :=
  ∃ k items, (w.recording k).queue = some items ∧
    (w'.recording k).queue = some (items ++ [.terminator])

/-- Every `write_file_t` pointer is what it was, with its `enable`, `file` and
`queue`, and no file opened in between is open. -/
structure SlotsKept (w w' : WriteComponent) : Prop where
  slots : ∀ n, (w'.fileT n).map (fun t => (t.enable, t.file, t.queue)) =
    (w.fileT n).map fun t => (t.enable, t.file, t.queue)
  files : ∀ k, w.starts ≤ k → k < w'.starts → (w'.recording k).isOpen = false

/-- The call left no trace: the list with its count, and what its nodes point to. -/
structure NoTrace (nodes nodes' : List UserNode) (cnt cnt' : Int) (w w' : WriteComponent) :
    Prop where
  nodes : nodes' = nodes
  cnt : cnt' = cnt
  kept : SlotsKept w w'

/-- The command starts or stops a recording. -/
def Effective (opCmd : Int) (t : WriteFile) (node : Nat) (r : SaveReplies) : Prop :=
  opCmd = 0 ∧ t.enable ≠ 0 ∧ r.tinyQueuePush node = true ∨
    opCmd = 1 ∧ t.enable ≠ 1 ∧ r.fopen = true ∧ r.tinyQueueCreate = true

/-- The command has no push that can fail and opens no file, or cannot open it
and there was none. -/
def Inert (opCmd : Int) (t : WriteFile) (r : SaveReplies) : Prop :=
  (opCmd = 0 → t.enable = 0) ∧ (opCmd = 1 → t.enable = 1 ∨ r.fopen = false ∧ t.file = none)

/-- The condition on a command whose node has the `write_file_t` in `slot`, or
gets one from the command. -/
def Clean (slot : Option WriteFile) (opCmd : Int) (node : Nat) (r : SaveReplies) : Prop :=
  match slot with
  | none => opCmd = 1 ∧ r.fopen = true ∧ r.tinyQueueCreate = true
  | some t => Effective opCmd t node r ∨ Inert opCmd t r

/-- On the slot of its RSSI node the command is effective, or leaves no trace. -/
def RssiClean (connfd : Int) (root : CJson) (r : SaveReplies) (g : GBrokerPara) : Prop :=
  ∀ opCmd, valueint root "type" = .ok typeRssiControl → valueint root "op_cmd" = .ok opCmd →
    ∀ n, findNode connfd g = some n → Clean (g.save.fileT n.addr) opCmd n.addr r

def CsiClean (connfd : Int) (root : CJson) (r : SaveReplies) (g : GDmaPara) : Prop :=
  ∀ opCmd, valueint root "type" = .ok typeControlSaveCsi → valueint root "op_cmd" = .ok opCmd →
    match findCsiSaveUserNode connfd g with
    | none => Clean none opCmd g.allocated r
    | some n => Clean (g.save.fileT n.addr) opCmd n.addr r

variable {w w' : WriteComponent} {n : Nat} {t : WriteFile} {opCmd : Int} {root : CJson}
  {r : SaveReplies}

theorem SlotsKept.refl (w : WriteComponent) : SlotsKept w w :=
  ⟨fun _ => rfl, fun _ hle hlt => absurd hle (Nat.not_le_of_lt hlt)⟩

theorem NoTrace.refl (nodes : List UserNode) (cnt : Int) (w : WriteComponent) :
    NoTrace nodes nodes cnt cnt w w :=
  ⟨rfl, rfl, .refl w⟩

section Performed

theorem not_launches_of_starts (hstarts : w'.starts = w.starts) : ¬ Launches w w' := by
  rintro ⟨k, hle, hlt, -⟩
  exact absurd (hstarts ▸ hlt) (Nat.not_lt_of_le hle)

theorem not_queuesTerminator_of_recording (hrecording : w'.recording = w.recording) :
    ¬ QueuesTerminator w w' := by
  rintro ⟨k, items, hitems, hpushed⟩
  rw [hrecording, hitems] at hpushed
  exact absurd (Option.some.inj hpushed) (by simp)

/-- What launches a writer or queues a terminator is the command that should. -/
theorem effective_iff (h : Performed n t opCmd root r w w') :
    Launches w w' ∨ QueuesTerminator w w' ↔ Effective opCmd t n r := by
  cases h with
  | idle hzero hone =>
      apply iff_of_false
      · rintro (hlaunch | hqueue)
        · exact not_launches_of_starts rfl hlaunch
        · exact not_queuesTerminator_of_recording rfl hqueue
      · rintro (⟨h0, henable, -⟩ | ⟨h1, henable, -⟩)
        · exact henable (hzero h0)
        · exact henable (hone h1)
  | stopped k items hzero henable hmemory hqueue hitems =>
      apply iff_of_true
      · exact .inr ⟨k, items, hitems, by simp⟩
      · exact .inl ⟨hzero, henable, hmemory⟩
  | notStopped hzero henable hmemory =>
      apply iff_of_false
      · rintro (hlaunch | hqueue)
        · exact not_launches_of_starts rfl hlaunch
        · exact not_queuesTerminator_of_recording rfl hqueue
      · simp [Effective, hzero, hmemory]
  | started name hone henable hname hopen hcreate =>
      apply iff_of_true
      · exact .inl ⟨w.starts, Nat.le_refl _, Nat.lt_succ_self _, by simp⟩
      · exact .inr ⟨hone, henable, hopen, hcreate⟩
  | leftOpen name hone henable hname hopen hcreate =>
      apply iff_of_false
      · rintro (⟨k, hle, hlt, hwriter⟩ | ⟨k, items, hitems, hpushed⟩)
        · obtain rfl := Nat.le_antisymm (Nat.le_of_lt_succ hlt) hle
          simp at hwriter
        · rcases eq_or_ne k w.starts with rfl | hk
          · simp at hpushed
          · rw [WriteComponent.recording_setFileT,
              WriteComponent.recording_setRecording_of_ne _ _ _ hk, hitems] at hpushed
            exact absurd (Option.some.inj hpushed) (by simp)
      · simp [Effective, hone, hcreate]
  | noFile name hone henable hname hopen =>
      apply iff_of_false
      · rintro (hlaunch | hqueue)
        · exact not_launches_of_starts rfl hlaunch
        · exact not_queuesTerminator_of_recording rfl hqueue
      · simp [Effective, hone, hopen]

theorem slotsKept_setFileT_iff {t' : WriteFile} (hslot : w.fileT n = some t) :
    SlotsKept w (w.setFileT n (some t')) ↔
      (t'.enable, t'.file, t'.queue) = (t.enable, t.file, t.queue) := by
  constructor
  · intro h
    have hn := h.slots n
    rw [WriteComponent.fileT_setFileT, hslot] at hn
    exact Option.some.inj hn
  · intro hsame
    refine ⟨fun m => ?_, fun _ hle hlt => absurd hle (Nat.not_le_of_lt hlt)⟩
    rcases eq_or_ne m n with rfl | hm
    · rw [WriteComponent.fileT_setFileT, hslot, Option.map_some, hsame, Option.map_some]
    · rw [WriteComponent.fileT_setFileT_of_ne _ _ _ hm]

theorem slotsKept_iff (h : Performed n t opCmd root r w w') (hslot : w.fileT n = some t)
    (hnot : ¬ Effective opCmd t n r) : SlotsKept w w' ↔ Inert opCmd t r := by
  cases h with
  | idle hzero hone =>
      apply iff_of_true
      · exact .refl w
      · exact ⟨hzero, fun h1 => .inl (hone h1)⟩
  | stopped k items hzero henable hmemory hqueue hitems =>
      exact absurd (.inl ⟨hzero, henable, hmemory⟩) hnot
  | notStopped hzero henable hmemory =>
      rw [slotsKept_setFileT_iff hslot]
      apply iff_of_false
      · intro hsame
        exact henable (Prod.mk.inj hsame).1.symm
      · intro hinert
        exact henable (hinert.1 hzero)
  | started name hone henable hname hopen hcreate =>
      exact absurd (.inr ⟨hone, henable, hopen, hcreate⟩) hnot
  | leftOpen name hone henable hname hopen hcreate =>
      apply iff_of_false
      · intro h
        have hclosed := h.files w.starts (Nat.le_refl _) (Nat.lt_succ_self _)
        simp at hclosed
      · intro hinert
        rcases hinert.2 hone with hone' | ⟨hfail, -⟩
        · exact henable hone'
        · rw [hopen] at hfail
          cases hfail
  | noFile name hone henable hname hopen =>
      rw [slotsKept_setFileT_iff hslot]
      constructor
      · intro hsame
        refine ⟨by simp [hone], fun _ => .inr ⟨hopen, ?_⟩⟩
        exact (Prod.mk.inj (Prod.mk.inj hsame).2).1.symm
      · intro hinert
        obtain ⟨-, hfile⟩ := (hinert.2 hone).resolve_left henable
        simp [hfile]

theorem slot_of_performed (h : Performed n t opCmd root r w w') (hslot : w.fileT n = some t) :
    w'.fileT n ≠ none := by
  cases h with
  | idle => simp [hslot]
  | stopped | notStopped | started | leftOpen | noFile => simp

theorem clean_iff (h : Performed n t opCmd root r w w') (hslot : w.fileT n = some t) :
    (¬ Launches w w' → ¬ QueuesTerminator w w' → SlotsKept w w') ↔ Clean (some t) opCmd n r := by
  have heffective := effective_iff h
  by_cases heff : Effective opCmd t n r
  · apply iff_of_true
    · intro hlaunch hqueue
      exact absurd (heffective.mpr heff) (not_or.mpr ⟨hlaunch, hqueue⟩)
    · exact .inl heff
  · obtain ⟨hlaunch, hqueue⟩ := not_or.mp (mt heffective.mp heff)
    rw [Clean, or_iff_right heff, ← slotsKept_iff h hslot heff]
    exact ⟨fun hkept => hkept hlaunch hqueue, fun hkept _ _ => hkept⟩

/-- On a `write_file_t` that the call made there is a trace, unless it starts. -/
theorem clean_fresh_iff (h : Performed n .fresh opCmd root r w w') {trace : Prop}
    (htrace : ¬ trace) :
    (¬ Launches w w' → ¬ QueuesTerminator w w' → trace) ↔ Clean none opCmd n r := by
  have heffective := effective_iff h
  have hfresh : Effective opCmd .fresh n r ↔ Clean none opCmd n r := by
    simp [Effective, Clean, WriteFile.fresh]
  rw [← hfresh, ← heffective]
  constructor
  · intro hnone
    by_contra hneither
    obtain ⟨hlaunch, hqueue⟩ := not_or.mp hneither
    exact htrace (hnone hlaunch hqueue)
  · intro heither hlaunch hqueue
    exact absurd heither (not_or.mpr ⟨hlaunch, hqueue⟩)

end Performed

theorem noTrace_iff (nodes : List UserNode) (cnt : Int) :
    NoTrace nodes nodes cnt cnt w w' ↔ SlotsKept w w' :=
  ⟨NoTrace.kept, fun hkept => ⟨rfl, rfl, hkept⟩⟩

theorem rssi_traceless_iff {connfd ret : Int} {g g' : GBrokerPara}
    (hok : processRssiSaveFile connfd root r g = .ok (ret, g')) :
    (¬ Launches g.save g'.save → ¬ QueuesTerminator g.save g'.save →
      NoTrace g.rssiUserNodeHead g'.rssiUserNodeHead g.rssiUserCnt g'.rssiUserCnt g.save g'.save) ↔
        RssiClean connfd root r g := by
  have hclean : ∀ {u : UserNode} {opCmd : Int}, valueint root "type" = .ok typeRssiControl →
      findNode connfd g = some u → valueint root "op_cmd" = .ok opCmd →
      (RssiClean connfd root r g ↔ Clean (g.save.fileT u.addr) opCmd u.addr r) := by
    intro u opCmd htype hu hcmd
    constructor
    · intro h
      exact h opCmd htype hcmd u hu
    · intro h opCmd' _ hcmd' u' hu'
      obtain rfl := Except.ok.inj (hcmd.symm.trans hcmd')
      obtain rfl := Option.some.inj (hu.symm.trans hu')
      exact h
  cases processRssiSaveFile_commanded hok with
  | otherType type htype hother =>
      apply iff_of_true
      · exact fun _ _ => .refl _ _ _
      · intro opCmd htype'
        exact absurd (Except.ok.inj (htype.symm.trans htype')) hother
  | noNode htype hnone =>
      apply iff_of_true
      · exact fun _ _ => .refl _ _ _
      · intro opCmd _ _ u hu
        rw [hnone] at hu
        cases hu
  | found u t opCmd save htype hu hslot hcmd hperformed =>
      rw [hclean htype hu hcmd, hslot, noTrace_iff]
      exact clean_iff hperformed hslot
  | made u opCmd save htype hu hslot hcmd hperformed =>
      rw [hclean htype hu hcmd, hslot]
      refine clean_fresh_iff hperformed fun hnone => ?_
      have hsame := hnone.kept.slots u.addr
      rw [hslot] at hsame
      exact slot_of_performed hperformed (WriteComponent.fileT_setFileT _ _ _)
        (Option.map_eq_none_iff.mp hsame)

theorem csi_traceless_iff {connfd ret : Int} {g g' : GDmaPara}
    (hok : processCsiSaveFile connfd root r g = .ok (ret, g')) :
    (¬ Launches g.save g'.save → ¬ QueuesTerminator g.save g'.save →
      NoTrace g.csiSaveUserNodeHead g'.csiSaveUserNodeHead g.csiSaveUserCnt g'.csiSaveUserCnt
        g.save g'.save) ↔ CsiClean connfd root r g := by
  cases processCsiSaveFile_commanded hok with
  | otherType type htype hother =>
      apply iff_of_true
      · exact fun _ _ => .refl _ _ _
      · intro opCmd htype'
        exact absurd (Except.ok.inj (htype.symm.trans htype')) hother
  | found u t opCmd save htype hfind hslot hcmd hperformed =>
      have hclean : CsiClean connfd root r g ↔ Clean (some t) opCmd u.addr r := by
        simp only [CsiClean, hfind, hslot]
        constructor
        · intro h
          exact h opCmd htype hcmd
        · intro h opCmd' _ hcmd'
          obtain rfl := Except.ok.inj (hcmd.symm.trans hcmd')
          exact h
      rw [hclean, noTrace_iff]
      exact clean_iff hperformed hslot
  | made opCmd save htype hfind hcmd hperformed =>
      have hclean : CsiClean connfd root r g ↔ Clean none opCmd g.allocated r := by
        simp only [CsiClean, hfind]
        constructor
        · intro h
          exact h opCmd htype hcmd
        · intro h opCmd' _ hcmd'
          obtain rfl := Except.ok.inj (hcmd.symm.trans hcmd')
          exact h
      rw [hclean]
      refine clean_fresh_iff hperformed fun hnone => ?_
      have hnodes := hnone.nodes
      simp at hnodes

/-- A save command that starts or stops nothing leaves no trace, exactly if it
made no node or `write_file_t`, left no file open and failed no push. -/
theorem traceless_iff (connfd ret : Int) (root : CJson) (r : SaveReplies) :
    (∀ g g' : GBrokerPara, processRssiSaveFile connfd root r g = .ok (ret, g') →
      ((¬ Launches g.save g'.save → ¬ QueuesTerminator g.save g'.save →
        NoTrace g.rssiUserNodeHead g'.rssiUserNodeHead g.rssiUserCnt g'.rssiUserCnt g.save
          g'.save) ↔ RssiClean connfd root r g)) ∧
    (∀ g g' : GDmaPara, processCsiSaveFile connfd root r g = .ok (ret, g') →
      ((¬ Launches g.save g'.save → ¬ QueuesTerminator g.save g'.save →
        NoTrace g.csiSaveUserNodeHead g'.csiSaveUserNodeHead g.csiSaveUserCnt g'.csiSaveUserCnt
          g.save g'.save) ↔ CsiClean connfd root r g)) :=
  ⟨fun _ _ => rssi_traceless_iff, fun _ _ => csi_traceless_iff⟩

/-- Connection 7 opens RSSI and stops both recordings it never started. -/
def stopUnstarted : List Label :=
  [⟨.acceptNewUser 7, .success⟩, ⟨.inquiryRssi 7, .success⟩,
    ⟨.controlRssi 7 (saveRequest 43 0 ""), .success⟩,
    ⟨.controlSaveIqData 7 (saveRequest 53 0 ""), .success⟩]

/-- To stop them once more leaves no trace. -/
theorem traceless_stop_again :
    ∃ trs s g g', replay survive (startState ⟨"dev", "1"⟩ ⟨"dev", "0"⟩) stopUnstarted =
        some (trs, s) ∧
      processRssiSaveFile 7 (saveRequest 43 0 "") Replies.success.save s.broker = .ok (-1, g) ∧
      NoTrace s.broker.rssiUserNodeHead g.rssiUserNodeHead s.broker.rssiUserCnt g.rssiUserCnt
        s.broker.save g.save ∧
      processCsiSaveFile 7 (saveRequest 53 0 "") Replies.success.save s.dma = .ok (0, g') ∧
      NoTrace s.dma.csiSaveUserNodeHead g'.csiSaveUserNodeHead s.dma.csiSaveUserCnt
        g'.csiSaveUserCnt s.dma.save g'.save := by
  obtain ⟨trs, s, g, g', hs, hrssi, hcsi, hfind, hfind', hslot, hslot', hsave, hsave'⟩ :
      ∃ trs s g g', replay survive (startState ⟨"dev", "1"⟩ ⟨"dev", "0"⟩) stopUnstarted =
          some (trs, s) ∧
        processRssiSaveFile 7 (saveRequest 43 0 "") Replies.success.save s.broker =
          .ok (-1, g) ∧
        processCsiSaveFile 7 (saveRequest 53 0 "") Replies.success.save s.dma = .ok (0, g') ∧
        findNode 7 s.broker = some ⟨0, 7⟩ ∧ findCsiSaveUserNode 7 s.dma = some ⟨0, 7⟩ ∧
        s.broker.save.fileT 0 = some .fresh ∧ s.dma.save.fileT 0 = some .fresh ∧
        g.save = s.broker.save ∧ g'.save = s.dma.save :=
    ⟨_, _, _, _, rfl, rfl, rfl, rfl, rfl, rfl, rfl, rfl, rfl⟩
  have hinert : Inert 0 .fresh Replies.success.save := ⟨fun _ => rfl, by simp⟩
  have hcmd : ∀ {type opCmd}, valueint (saveRequest type 0 "") "op_cmd" = .ok opCmd →
      opCmd = 0 := fun h => (Except.ok.inj h).symm
  refine ⟨trs, s, g, g', hs, hrssi, ?_, hcsi, ?_⟩
  · refine ((traceless_iff 7 (-1) _ _).1 _ _ hrssi).mpr ?_ ?_ ?_
    · intro opCmd _ hop n hn
      obtain rfl := hcmd hop
      obtain rfl := Option.some.inj (hfind.symm.trans hn)
      rw [hslot]
      exact .inr hinert
    · exact not_launches_of_starts (by rw [hsave])
    · exact not_queuesTerminator_of_recording (by rw [hsave])
  · refine ((traceless_iff 7 0 _ _).2 _ _ hcsi).mpr ?_ ?_ ?_
    · intro opCmd _ hop
      obtain rfl := hcmd hop
      rw [hfind']
      dsimp only
      rw [hslot']
      exact .inr hinert
    · exact not_launches_of_starts (by rw [hsave'])
    · exact not_queuesTerminator_of_recording (by rw [hsave'])

/-- Connection 7 opens RSSI; its start commands find no memory for a queue. Each
leaves its file open, and the CSI command also the node it made. -/
theorem failed_start_leaves_file_open :
    ∃ trs s g g', Run Step (startState ⟨"dev", "1"⟩ ⟨"dev", "0"⟩) trs s ∧
      trs.map (fun tr => tr.label) = [⟨.acceptNewUser 7, .success⟩, ⟨.inquiryRssi 7, .success⟩] ∧
      processRssiSaveFile 7 (saveRequest 43 1 "a")
        { Replies.success.save with tinyQueueCreate := false } s.broker = .ok (-1, g) ∧
      ¬ Launches s.broker.save g.save ∧ ¬ QueuesTerminator s.broker.save g.save ∧
      s.broker.save.starts = 0 ∧ g.save.starts = 1 ∧ (g.save.recording 0).isOpen = true ∧
      ¬ NoTrace s.broker.rssiUserNodeHead g.rssiUserNodeHead s.broker.rssiUserCnt g.rssiUserCnt
        s.broker.save g.save ∧
      processCsiSaveFile 7 (saveRequest 53 1 "b")
        { Replies.success.save with tinyQueueCreate := false } s.dma = .ok (-1, g') ∧
      ¬ Launches s.dma.save g'.save ∧ ¬ QueuesTerminator s.dma.save g'.save ∧
      s.dma.csiSaveUserNodeHead = [] ∧ g'.csiSaveUserNodeHead = [⟨0, 7⟩] ∧
      ¬ NoTrace s.dma.csiSaveUserNodeHead g'.csiSaveUserNodeHead s.dma.csiSaveUserCnt
        g'.csiSaveUserCnt s.dma.save g'.save := by
  obtain ⟨trs, s, g, g', hs, hlabels, hrssi, hcsi, hempty, hempty', hstarts, hstarts', hstarts'',
      hopen, hwriter, hwriter', hnodes, hnodes'⟩ :
      ∃ trs s g g', replay survive (startState ⟨"dev", "1"⟩ ⟨"dev", "0"⟩)
          [⟨.acceptNewUser 7, .success⟩, ⟨.inquiryRssi 7, .success⟩] = some (trs, s) ∧
        trs.map (fun tr => tr.label) =
          [⟨.acceptNewUser 7, .success⟩, ⟨.inquiryRssi 7, .success⟩] ∧
        processRssiSaveFile 7 (saveRequest 43 1 "a")
          { Replies.success.save with tinyQueueCreate := false } s.broker = .ok (-1, g) ∧
        processCsiSaveFile 7 (saveRequest 53 1 "b")
          { Replies.success.save with tinyQueueCreate := false } s.dma = .ok (-1, g') ∧
        (∀ k, (s.broker.save.recording k).queue = none) ∧
        (∀ k, (s.dma.save.recording k).queue = none) ∧
        s.broker.save.starts = 0 ∧ g.save.starts = 1 ∧ g'.save.starts = 1 ∧
        (g.save.recording 0).isOpen = true ∧ (g.save.recording 0).writer = none ∧
        (g'.save.recording 0).writer = none ∧
        s.dma.csiSaveUserNodeHead = [] ∧ g'.csiSaveUserNodeHead = [⟨0, 7⟩] :=
    ⟨_, _, _, _, rfl, rfl, rfl, rfl, fun _ => rfl, fun _ => rfl, rfl, rfl, rfl, rfl, rfl, rfl, rfl,
      rfl⟩
  have hlaunch : ∀ {w w' : WriteComponent}, w'.starts = 1 → (w'.recording 0).writer = none →
      ¬ Launches w w' := by
    rintro w w' hone hnone ⟨k, -, hlt, hwriter⟩
    obtain rfl : k = 0 := by omega
    rw [hnone] at hwriter
    cases hwriter
  have hqueue : ∀ {w w' : WriteComponent}, (∀ k, (w.recording k).queue = none) →
      ¬ QueuesTerminator w w' := by
    rintro w w' hnone ⟨k, items, hitems, -⟩
    rw [hnone k] at hitems
    cases hitems
  refine ⟨trs, s, g, g', run_of_replay step_of_survive hs, hlabels, hrssi,
    hlaunch hstarts' hwriter, hqueue hempty, hstarts, hstarts', hopen, fun hnone => ?_, hcsi,
    hlaunch hstarts'' hwriter', hqueue hempty', hnodes, hnodes', fun hnone => ?_⟩
  · have hclosed := hnone.kept.files 0 (by omega) (by omega)
    rw [hopen] at hclosed
    cases hclosed
  · have hsame := hnone.nodes
    rw [hnodes, hnodes'] at hsame
    cases hsame

end GwWeb.SaveTraces
