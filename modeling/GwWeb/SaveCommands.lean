import GwWeb.EventProcess
import GwWeb.WriteOperations

/-!
All that a save command can do, once for both protocols.
-/

namespace GwWeb.SaveCommands

open GwWeb.WebCommon
open GwWeb.MosquittoBroker
open GwWeb.DmaHandler
open GwWeb.WriteIsolation

/-- What a save command does, from `op_cmd` on, for a node whose `write_file_t`
is `t`. -/
inductive Performed (node : Nat) (t : WriteFile) (opCmd : Int) (root : CJson) (r : SaveReplies)
    (w : WriteComponent) : WriteComponent → Prop where
  | idle (hzero : opCmd = 0 → t.enable = 0) (hone : opCmd = 1 → t.enable = 1) :
      Performed node t opCmd root r w w
  | stopped (k : Nat) (items : List QueueItem) (hzero : opCmd = 0) (henable : t.enable ≠ 0)
      (hmemory : r.tinyQueuePush node = true) (hqueue : t.queue = some k)
      (hitems : (w.recording k).queue = some items) :
      Performed node t opCmd root r w ((w.setRecording k { w.recording k with
        queue := some (items ++ [.terminator]) }).setFileT node (some { t with enable := 0 }))
  | notStopped (hzero : opCmd = 0) (henable : t.enable ≠ 0)
      (hmemory : r.tinyQueuePush node = false) :
      Performed node t opCmd root r w (w.setFileT node (some { t with enable := 0 }))
  | started (name : String) (hone : opCmd = 1) (henable : t.enable ≠ 1)
      (hname : valuestring root "file_name" = .ok name) (hopen : r.fopen = true)
      (hcreate : r.tinyQueueCreate = true) :
      Performed node t opCmd root r w ((({ w with starts := w.starts + 1 }).setRecording w.starts
        { node, fileName := logDirectory ++ name, written := [], isOpen := true,
          queue := some [], writer := some .fetch, queued := [] }).setFileT node
        (some { enable := 1, queue := some w.starts, fileName := logDirectory ++ name,
                file := some w.starts }))
  | leftOpen (name : String) (hone : opCmd = 1) (henable : t.enable ≠ 1)
      (hname : valuestring root "file_name" = .ok name) (hopen : r.fopen = true)
      (hcreate : r.tinyQueueCreate = false) :
      Performed node t opCmd root r w ((({ w with starts := w.starts + 1 }).setRecording w.starts
        { node, fileName := logDirectory ++ name, written := [], isOpen := true, queue := none,
          writer := none, queued := [] }).setFileT node
        (some { t with queue := none, fileName := logDirectory ++ name, file := some w.starts }))
  | noFile (name : String) (hone : opCmd = 1) (henable : t.enable ≠ 1)
      (hname : valuestring root "file_name" = .ok name) (hopen : r.fopen = false) :
      Performed node t opCmd root r w
        (w.setFileT node (some { t with fileName := logDirectory ++ name, file := none }))

variable {w w' : WriteComponent} {n : Nat} {t : WriteFile} {root : CJson} {r : SaveReplies}
  {connfd ret : Int}

theorem performed_informStop (henable : t.enable ≠ 0) (hslot : w.fileT n = some t)
    (hok : informStop n r w = .ok w') : Performed n t 0 root r w w' := by
  obtain ⟨t', hslot', hstopped⟩ := informStop_ok hok
  obtain rfl := Option.some.inj (hslot.symm.trans hslot')
  rcases hstopped with ⟨hmemory, rfl⟩ | ⟨hmemory, k, items, hqueue, hitems, rfl⟩
  · exact .notStopped rfl henable hmemory
  · exact .stopped k items rfl henable hmemory hqueue hitems

theorem performed_startSave (henable : t.enable ≠ 1) {name : String}
    (hname : valuestring root "file_name" = .ok name) :
    Performed n t 1 root r w (startSave n t name r w).2 := by
  unfold startSave
  split
  · rename_i hopen
    dsimp only
    split
    · rename_i hcreate
      exact .started name rfl henable hname hopen hcreate
    · rename_i hcreate
      exact .leftOpen name rfl henable hname hopen (by simpa using hcreate)
  · rename_i hopen
    exact .noFile name rfl henable hname (by simpa using hopen)

theorem performed_saveCommand {already : Int} (hslot : w.fileT n = some t)
    (hok : saveCommand already n root r w = .ok (ret, w')) :
    ∃ opCmd, valueint root "op_cmd" = .ok opCmd ∧ Performed n t opCmd root r w w' := by
  obtain ⟨opCmd, hcmd, hok⟩ := bind_eq_ok.mp hok
  refine ⟨opCmd, hcmd, ?_⟩
  simp only [hslot] at hok
  split at hok
  · rename_i hzero
    subst hzero
    split at hok
    · rename_i henable
      obtain rfl := (Prod.mk.inj (Except.ok.inj hok)).2
      exact .idle (fun _ => henable) (by simp)
    · rename_i henable
      obtain ⟨w₁, hstop, hok⟩ := bind_eq_ok.mp hok
      obtain rfl := (Prod.mk.inj (Except.ok.inj hok)).2
      exact performed_informStop henable hslot hstop
  · rename_i hnonzero
    split at hok
    · rename_i hone
      subst hone
      split at hok
      · rename_i henable
        obtain rfl := (Prod.mk.inj (Except.ok.inj hok)).2
        exact .idle (by simp) fun _ => henable
      · rename_i henable
        obtain ⟨name, hname, hok⟩ := bind_eq_ok.mp hok
        have hstart := performed_startSave (n := n) (r := r) (w := w) henable hname
        rwa [Except.ok.inj hok] at hstart
    · rename_i hone
      obtain rfl := (Prod.mk.inj (Except.ok.inj hok)).2
      exact .idle (fun hzero => absurd hzero hnonzero) fun h => absurd h hone

theorem saveCommand_slot {already : Int} {out : Int × WriteComponent}
    (hok : saveCommand already n root r w = .ok out) : ∃ t, w.fileT n = some t := by
  obtain ⟨opCmd, -, hok⟩ := bind_eq_ok.mp hok
  split at hok
  · cases hok
  · rename_i t hslot
    exact ⟨t, hslot⟩

/-- What one save command did to its module: nothing, or what its `op_cmd` says
to a `write_file_t` that it found or made. -/
inductive RssiCommanded (connfd : Int) (root : CJson) (r : SaveReplies) (g : GBrokerPara) :
    GBrokerPara → Prop where
  | otherType (type : Int) (htype : valueint root "type" = .ok type)
      (hother : type ≠ typeRssiControl) : RssiCommanded connfd root r g g
  | noNode (htype : valueint root "type" = .ok typeRssiControl)
      (hnone : findNode connfd g = none) : RssiCommanded connfd root r g g
  | found (u : UserNode) (t : WriteFile) (opCmd : Int) (save : WriteComponent)
      (htype : valueint root "type" = .ok typeRssiControl) (hfind : findNode connfd g = some u)
      (hslot : g.save.fileT u.addr = some t) (hcmd : valueint root "op_cmd" = .ok opCmd)
      (hperformed : Performed u.addr t opCmd root r g.save save) :
      RssiCommanded connfd root r g { g with save }
  | made (u : UserNode) (opCmd : Int) (save : WriteComponent)
      (htype : valueint root "type" = .ok typeRssiControl) (hfind : findNode connfd g = some u)
      (hslot : g.save.fileT u.addr = none) (hcmd : valueint root "op_cmd" = .ok opCmd)
      (hperformed : Performed u.addr .fresh opCmd root r
        (g.save.setFileT u.addr (some .fresh)) save) :
      RssiCommanded connfd root r g { g with save }

theorem processRssiSaveFile_commanded {g g' : GBrokerPara}
    (hok : processRssiSaveFile connfd root r g = .ok (ret, g')) :
    RssiCommanded connfd root r g g' := by
  obtain ⟨type, htype, hok⟩ := bind_eq_ok.mp hok
  split at hok
  · rename_i hother
    obtain rfl := (Prod.mk.inj (Except.ok.inj hok)).2
    exact .otherType type htype hother
  · rename_i htype'
    obtain rfl := not_not.mp htype'
    split at hok
    · rename_i hnone
      obtain rfl := (Prod.mk.inj (Except.ok.inj hok)).2
      exact .noNode htype hnone
    · rename_i u hu
      obtain ⟨⟨ret', save⟩, hsave, hok⟩ := bind_eq_ok.mp hok
      obtain rfl := (Prod.mk.inj (Except.ok.inj hok)).2
      cases hslot : g.save.fileT u.addr with
      | none =>
          rw [hslot] at hsave
          obtain ⟨opCmd, hcmd, hperformed⟩ :=
            performed_saveCommand (WriteComponent.fileT_setFileT _ _ _) hsave
          exact .made u opCmd save htype hu hslot hcmd hperformed
      | some t =>
          rw [hslot] at hsave
          obtain ⟨opCmd, hcmd, hperformed⟩ := performed_saveCommand hslot hsave
          exact .found u t opCmd save htype hu hslot hcmd hperformed

/-- What a CSI save command may do, case by case. -/
inductive CsiCommanded (connfd : Int) (root : CJson) (r : SaveReplies) (g : GDmaPara) :
    GDmaPara → Prop where
  | otherType (type : Int) (htype : valueint root "type" = .ok type)
      (hother : type ≠ typeControlSaveCsi) : CsiCommanded connfd root r g g
  | found (u : UserNode) (t : WriteFile) (opCmd : Int) (save : WriteComponent)
      (htype : valueint root "type" = .ok typeControlSaveCsi)
      (hfind : findCsiSaveUserNode connfd g = some u) (hslot : g.save.fileT u.addr = some t)
      (hcmd : valueint root "op_cmd" = .ok opCmd)
      (hperformed : Performed u.addr t opCmd root r g.save save) :
      CsiCommanded connfd root r g { g with save }
  | made (opCmd : Int) (save : WriteComponent)
      (htype : valueint root "type" = .ok typeControlSaveCsi)
      (hfind : findCsiSaveUserNode connfd g = none) (hcmd : valueint root "op_cmd" = .ok opCmd)
      (hperformed : Performed g.allocated .fresh opCmd root r
        (g.save.setFileT g.allocated (some .fresh)) save) :
      CsiCommanded connfd root r g { g with
        csiSaveUserNodeHead := g.csiSaveUserNodeHead ++ [{ addr := g.allocated, connfd }]
        allocated := g.allocated + 1
        csiSaveUserCnt := g.csiSaveUserCnt + 1
        save }

theorem processCsiSaveFile_commanded {g g' : GDmaPara}
    (hok : processCsiSaveFile connfd root r g = .ok (ret, g')) :
    CsiCommanded connfd root r g g' := by
  obtain ⟨type, htype, hok⟩ := bind_eq_ok.mp hok
  split at hok
  · rename_i hother
    obtain rfl := (Prod.mk.inj (Except.ok.inj hok)).2
    exact .otherType type htype hother
  · rename_i htype'
    obtain rfl := not_not.mp htype'
    obtain ⟨⟨ret', save⟩, hsave, hok⟩ := bind_eq_ok.mp hok
    obtain rfl := (Prod.mk.inj (Except.ok.inj hok)).2
    unfold csiSaveUserNode at hsave ⊢
    cases hfind : findCsiSaveUserNode connfd g with
    | none =>
        rw [hfind] at hsave
        obtain ⟨opCmd, hcmd, hperformed⟩ :=
          performed_saveCommand (WriteComponent.fileT_setFileT _ _ _) hsave
        exact .made opCmd save htype hfind hcmd hperformed
    | some u =>
        rw [hfind] at hsave
        obtain ⟨t, hslot⟩ := saveCommand_slot hsave
        obtain ⟨opCmd, hcmd, hperformed⟩ := performed_saveCommand hslot hsave
        exact .found u t opCmd save htype hfind hslot hcmd hperformed

end GwWeb.SaveCommands
