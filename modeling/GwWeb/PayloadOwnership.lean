import GwWeb.BlockOwnership
import GwWeb.DmaHandler
import GwWeb.FrameDispatch
import GwWeb.TransitionRuns

/-!
Who owns the blocks behind `tmp_data`: the `web_msg_t` of each frame, the copies of
constellation samples, and the answers of the RF worker with their response strings.
-/

namespace GwWeb.PayloadOwnership

open BlockOwnership
open TransitionRuns
open GwWeb.DmaHandler (GDmaPara)
open GwWeb.FrameDispatch
open GwWeb.WebCommon

/-- A block, and the one that `buf_data` in it points to if it is a `web_msg_t`. -/
structure Block where
  addr : Nat
  bufData : Option Nat
  deriving DecidableEq

/-- A message with the block it carries. -/
structure Message where
  msgType : BitVec 32
  tmpData : Option Block
  deriving DecidableEq

/-- `handling` is the message at the event loop, until its handler is done. Blocks are
numbered as they are allocated; `freed` are those that were freed, in order. -/
structure State where
  queue : List Message
  handling : Option Message
  allocated : Nat
  freed : List Nat

def startState : State := { queue := [], handling := none, allocated := 0, freed := [] }

/-- `malloc`: addresses are not used again. -/
def malloc (s : State) : Nat × State := (s.allocated, { s with allocated := s.allocated + 1 })

def free (addr : Nat) (s : State) : State := { s with freed := s.freed ++ [addr] }

def postMsg (m : Message) (s : State) : State := { s with queue := s.queue ++ [m] }

/-- `processMessage_table_drive` with the function it calls; `parseRequestJson` sets
`buf_data` to NULL. -/
def processMessageTableDrive (type : BitVec 32) (s : State) : State :=
  let (msgTmp, s) := malloc s
  match funFor type with
  | none => s
  | some fn =>
      match idxMsgFor type with
      | none => s
      | some msgType =>
          match fn with
          | .processNoJsonFun | .processJsonFun => postMsg ⟨msgType, some ⟨msgTmp, none⟩⟩ s
          | .fastResponseFun => s

def iqRegisterCallback (buf : List UInt8) (gDma : GDmaPara) (s : State) : State :=
  match GwWeb.DmaHandler.iqRegisterCallback buf gDma with
  | none => s
  | some (.csiReady _) => postMsg ⟨MsgEvent.csiReady.code, none⟩ s
  | some (.constellationReady _) =>
      let (tmpData, s) := malloc s
      postMsg ⟨MsgEvent.constellationReady.code, some ⟨tmpData, none⟩⟩ s

def inquiryRfStateWrapper (s : State) : State :=
  let (responseJson, s) := malloc s
  let (tmpWeb, s) := malloc s
  postMsg ⟨MsgEvent.rfInfoReady.code, some ⟨tmpWeb, some responseJson⟩⟩ s

/-- The messages whose `case` in the event loop sets `tmp_web`. -/
def webEvents : List MsgEvent :=
  [.inquirySystemState, .inquiryRegState, .inquiryRssi, .controlRssi, .startCsi, .stopCsi,
    .startConstellation, .stopConstellation, .controlSaveIqData, .openDistanceApp,
    .closeDistanceApp, .openDac, .closeDac, .clearLog, .resetSystem, .inquiryStatistics,
    .ipSetting, .inquiryRfInfo, .rfInfoReady, .rfFreqSetting, .openTxPower, .closeTxPower,
    .openRxGain, .closeRxGain]

/-- What is freed for a message: `response_json` by its own `case`, and `tmp_web` behind
the `switch`. -/
def handle (getData : Message) (s : State) : Except Fault State :=
  if IsOneOf webEvents getData.msgType then
    match getData.tmpData with
    | none => .error .nullPointer
    | some tmpWeb =>
        if getData.msgType = MsgEvent.rfInfoReady.code then
          match tmpWeb.bufData with
          | none => .error .nullPointer
          | some responseJson => .ok (free tmpWeb.addr (free responseJson s))
        else .ok (free tmpWeb.addr s)
  else .ok s

/-- What posts a message, or handles one. -/
inductive Label where
  | frame (type : BitVec 32)
  | iqCallback (buf : List UInt8) (gDma : GDmaPara)
  | rfAnswer
  | take
  | finish

def execute (s : State) : Label → Except Fault State
  | .frame type => .ok (processMessageTableDrive type s)
  | .iqCallback buf gDma => .ok (iqRegisterCallback buf gDma s)
  | .rfAnswer => .ok (inquiryRfStateWrapper s)
  | .take =>
      match s.queue with
      | [] => .ok s
      | m :: queue => .ok { s with queue, handling := some m }
  | .finish =>
      match s.handling with
      | none => .ok s
      | some m => handle m { s with handling := none }

/-- The event loop takes a message when it is done with the last one. -/
def Possible (s : State) : Label → Prop
  | .take => s.handling = none ∧ s.queue ≠ []
  | .finish => s.handling ≠ none
  | _ => True

instance (s : State) (l : Label) : Decidable (Possible s l) :=
  match l with
  | .take => inferInstanceAs (Decidable (_ ∧ _))
  | .finish => inferInstanceAs (Decidable (_ ≠ _))
  | .frame _ => isTrue trivial
  | .iqCallback _ _ => isTrue trivial
  | .rfAnswer => isTrue trivial

abbrev Step : State → Label → State → Prop := Executes Possible execute

/-- The blocks that a message refers to. -/
def Message.references (m : Message) : List Nat :=
  m.tmpData.toList.flatMap fun block => block.addr :: block.bufData.toList

def pending (s : State) : List Message := s.handling.toList ++ s.queue

def referenced (s : State) : List Nat := (pending s).flatMap Message.references

/-- The blocks allocated and not freed are those that the queue and the handler in
progress refer to, each by one reference, and no block is freed twice. -/
def PayloadsOwned (s : State) : Prop := ExactlyOwned s.allocated s.freed (referenced s)

/-- A frame posts its `web_msg_t`, and the handler is not at a copy of constellation
samples. -/
def KeepsOwner (s : State) : Label → Prop
  | .frame type =>
      funFor type = some .processNoJsonFun ∨ funFor type = some .processJsonFun
  | .finish => ∀ m ∈ s.handling, m.msgType ≠ MsgEvent.constellationReady.code
  | _ => True

instance (s : State) (l : Label) : Decidable (KeepsOwner s l) :=
  match l with
  | .frame _ => inferInstanceAs (Decidable (_ ∨ _))
  | .finish =>
      inferInstanceAs (Decidable (∀ m ∈ s.handling, m.msgType ≠ MsgEvent.constellationReady.code))
  | .iqCallback _ _ => isTrue trivial
  | .rfAnswer => isTrue trivial
  | .take => isTrue trivial

/-- The messages that carry payloads, or none. -/
inductive Carries : Message → Prop where
  | request (msgType : BitVec 32) (addr : Nat) (web : IsOneOf webEvents msgType)
      (other : msgType ≠ MsgEvent.rfInfoReady.code) : Carries ⟨msgType, some ⟨addr, none⟩⟩
  | answer (addr responseJson : Nat) :
      Carries ⟨MsgEvent.rfInfoReady.code, some ⟨addr, some responseJson⟩⟩
  | samples (addr : Nat) : Carries ⟨MsgEvent.constellationReady.code, some ⟨addr, none⟩⟩
  | csi : Carries ⟨MsgEvent.csiReady.code, none⟩

/-- Each block that is not freed is referred to by one message. -/
structure Inv (s : State) : Prop where
  owned : Owned s.allocated s.freed (referenced s)
  carries : ∀ m ∈ pending s, Carries m

variable {s s' : State} {l : Label} {m : Message}

theorem payloadsOwned_iff : PayloadsOwned s ↔ Owned s.allocated s.freed (referenced s) :=
  owned_iff.symm

theorem pending_postMsg (m : Message) (s : State) : pending (postMsg m s) = pending s ++ [m] := by
  simp [pending, postMsg]

theorem referenced_postMsg (m : Message) (s : State) :
    referenced (postMsg m s) = referenced s ++ m.references := by
  simp [referenced, pending_postMsg]

theorem Inv.post (h : Inv s) (s' : State) {addr : Nat} {bufData : Option Nat} {msgType : BitVec 32}
    (hcarries : Carries ⟨msgType, some ⟨addr, bufData⟩⟩)
    (howned : Owned s'.allocated s'.freed
      (referenced s ++ (Message.mk msgType (some ⟨addr, bufData⟩)).references))
    (hpending : pending s' = pending s) :
    Inv (postMsg ⟨msgType, some ⟨addr, bufData⟩⟩ s') := by
  constructor
  · rw [referenced_postMsg, referenced, hpending]
    exact howned
  · rw [pending_postMsg, hpending]
    intro m hm
    rcases List.mem_append.mp hm with hold | hnew
    · exact h.carries m hold
    · rw [List.mem_singleton.mp hnew]
      exact hcarries

theorem webEvent_of_fun {type msgType : BitVec 32} {fn : ProcMsgFun} (hfun : funFor type = some fn)
    (hmsg : idxMsgFor type = some msgType) (hposts : fn ≠ .fastResponseFun) :
    IsOneOf webEvents msgType ∧ msgType ≠ MsgEvent.rfInfoReady.code := by
  obtain ⟨frameType, hrow, rfl⟩ := mem_of_find_row hfun
  obtain ⟨frameType', hrow', hcode⟩ := mem_of_find_row hmsg
  have htables : ∀ row ∈ msgFlow, ∀ row' ∈ idxMsg, row'.1.code = row.1.code →
      row.2 ≠ .fastResponseFun →
        IsOneOf webEvents row'.2 ∧ row'.2 ≠ MsgEvent.rfInfoReady.code := by
    decide
  exact htables _ hrow _ hrow' hcode hposts

theorem Inv.frame (h : Inv s) {type : BitVec 32}
    (hposts : funFor type = some .processNoJsonFun ∨ funFor type = some .processJsonFun) :
    Inv (processMessageTableDrive type s) := by
  obtain ⟨fn, hfun, hfn⟩ : ∃ fn, funFor type = some fn ∧
      (fn = .processNoJsonFun ∨ fn = .processJsonFun) := by
    rcases hposts with hposts | hposts
    · exact ⟨_, hposts, .inl rfl⟩
    · exact ⟨_, hposts, .inr rfl⟩
  obtain ⟨msgType, hmsg⟩ := Option.isSome_iff_exists.mp (idxMsgFor_isSome hfun)
  obtain ⟨hweb, hother⟩ := webEvent_of_fun hfun hmsg (by rcases hfn with rfl | rfl <;> decide)
  have hposted : Inv (postMsg ⟨msgType, some ⟨s.allocated, none⟩⟩ (malloc s).2) :=
    h.post _ (.request msgType s.allocated hweb hother) h.owned.allocate rfl
  simp only [processMessageTableDrive, hfun, hmsg]
  rcases hfn with rfl | rfl
  · exact hposted
  · exact hposted

/-- Other frames leave their `web_msg_t` behind. -/
theorem not_owned_frame (h : Inv s) {type : BitVec 32}
    (hposts : ¬ (funFor type = some .processNoJsonFun ∨ funFor type = some .processJsonFun)) :
    ¬ PayloadsOwned (processMessageTableDrive type s) := by
  have hleft : processMessageTableDrive type s = (malloc s).2 := by
    simp only [processMessageTableDrive]
    cases hfun : funFor type with
    | none => rfl
    | some fn =>
        cases hmsg : idxMsgFor type with
        | none => rfl
        | some msgType =>
            cases fn with
            | processNoJsonFun => exact absurd (.inl hfun) hposts
            | processJsonFun => exact absurd (.inr hfun) hposts
            | fastResponseFun => rfl
  rw [hleft, payloadsOwned_iff]
  exact h.owned.not_allocate

theorem Inv.iqCallback (h : Inv s) (buf : List UInt8) (gDma : GDmaPara) :
    Inv (iqRegisterCallback buf gDma s) := by
  unfold iqRegisterCallback
  split
  · exact h
  · refine ⟨?_, fun m hm => ?_⟩
    · rw [referenced_postMsg]
      simpa [postMsg, Message.references] using h.owned
    · rw [pending_postMsg] at hm
      rcases List.mem_append.mp hm with hold | hnew
      · exact h.carries m hold
      · rw [List.mem_singleton.mp hnew]
        exact .csi
  · exact h.post _ (.samples s.allocated) h.owned.allocate rfl

theorem Inv.rfAnswer (h : Inv s) : Inv (inquiryRfStateWrapper s) := by
  refine h.post (malloc (malloc s).2).2 (.answer (s.allocated + 1) s.allocated) ?_ rfl
  have howned := h.owned.allocate.allocate
  rw [List.append_assoc] at howned
  exact howned.reorder ((List.Perm.swap _ _ []).append_left _)

theorem pending_take {queue : List Message} (hqueue : s.queue = m :: queue)
    (hhandling : s.handling = none) :
    pending { s with queue, handling := some m } = pending s := by
  simp [pending, hqueue, hhandling]

theorem pending_finish (hhandling : s.handling = some m) :
    pending s = m :: pending { s with handling := none } := by
  simp [pending, hhandling]

theorem Inv.take (h : Inv s) {queue : List Message} (hqueue : s.queue = m :: queue)
    (hhandling : s.handling = none) : Inv { s with queue, handling := some m } := by
  have hpending := pending_take hqueue hhandling
  constructor
  · rw [referenced, hpending]
    exact h.owned
  · rw [hpending]
    exact h.carries

theorem webEvent_rfInfoReady :
    IsOneOf webEvents MsgEvent.rfInfoReady.code := by decide

theorem not_webEvent_samples :
    ¬ IsOneOf webEvents MsgEvent.constellationReady.code := by decide

theorem not_webEvent_csi : ¬ IsOneOf webEvents MsgEvent.csiReady.code := by decide

theorem Inv.finish (h : Inv s) (hhandling : s.handling = some m)
    (hother : m.msgType ≠ MsgEvent.constellationReady.code)
    (hok : handle m { s with handling := none } = .ok s') : Inv s' := by
  have hpending := pending_finish hhandling
  have howned := h.owned
  rw [referenced, hpending, List.flatMap_cons] at howned
  have hcarries : ∀ m' ∈ pending { s with handling := none }, Carries m' := fun m' hm' =>
    h.carries m' (hpending ▸ List.mem_cons_of_mem _ hm')
  cases h.carries m (hpending ▸ List.mem_cons_self) with
  | request msgType addr web other =>
      simp only [handle, web, other, if_true, if_false] at hok
      obtain rfl := Except.ok.inj hok
      exact ⟨howned.free, hcarries⟩
  | answer addr responseJson =>
      simp only [handle, webEvent_rfInfoReady, if_true] at hok
      obtain rfl := Except.ok.inj hok
      exact ⟨(howned.reorder (List.Perm.swap _ _ _)).free.free, hcarries⟩
  | samples addr => exact absurd rfl hother
  | csi =>
      simp only [handle, not_webEvent_csi, if_false] at hok
      obtain rfl := Except.ok.inj hok
      exact ⟨howned, hcarries⟩

/-- The handler of the samples leaves their copy behind. -/
theorem not_owned_samples (h : Inv s) (hhandling : s.handling = some m)
    (hsamples : m.msgType = MsgEvent.constellationReady.code)
    (hok : handle m { s with handling := none } = .ok s') : ¬ PayloadsOwned s' := by
  have hpending := pending_finish hhandling
  have howned := h.owned
  rw [referenced, hpending, List.flatMap_cons] at howned
  cases h.carries m (hpending ▸ List.mem_cons_self) with
  | request msgType addr web => exact absurd (hsamples ▸ web) not_webEvent_samples
  | answer addr responseJson =>
      exact absurd (hsamples ▸ webEvent_rfInfoReady) not_webEvent_samples
  | csi => exact absurd hsamples (by decide)
  | samples addr =>
      simp only [handle, not_webEvent_samples, if_false] at hok
      obtain rfl := Except.ok.inj hok
      rw [payloadsOwned_iff]
      exact howned.not_drop

theorem Inv.step (h : Inv s) (hguard : KeepsOwner s l) (hstep : Step s l s') : Inv s' := by
  obtain ⟨hpossible, hok⟩ := hstep
  cases l with
  | frame type =>
      obtain rfl := Except.ok.inj hok
      exact h.frame hguard
  | iqCallback buf gDma =>
      obtain rfl := Except.ok.inj hok
      exact h.iqCallback buf gDma
  | rfAnswer =>
      obtain rfl := Except.ok.inj hok
      exact h.rfAnswer
  | take =>
      obtain ⟨m, queue, hqueue⟩ := List.exists_cons_of_ne_nil hpossible.2
      simp only [execute, hqueue] at hok
      obtain rfl := Except.ok.inj hok
      exact h.take hqueue hpossible.1
  | finish =>
      obtain ⟨m, hhandling⟩ := Option.ne_none_iff_exists'.mp hpossible
      simp only [execute, hhandling] at hok
      exact h.finish hhandling (hguard m hhandling) hok

theorem not_owned_step (h : Inv s) (hguard : ¬ KeepsOwner s l) (hstep : Step s l s') :
    ¬ PayloadsOwned s' := by
  obtain ⟨hpossible, hok⟩ := hstep
  cases l with
  | frame type =>
      obtain rfl := Except.ok.inj hok
      exact not_owned_frame h hguard
  | iqCallback | rfAnswer | take => exact absurd trivial hguard
  | finish =>
      obtain ⟨m, hhandling⟩ := Option.ne_none_iff_exists'.mp hpossible
      simp only [execute, hhandling] at hok
      refine not_owned_samples h hhandling ?_ hok
      by_contra hother
      refine hguard fun m' hm' => ?_
      rw [← Option.some.inj (hhandling.symm.trans hm')]
      exact hother

theorem inv_started : Inv startState :=
  ⟨owned_empty, by simp [pending, startState]⟩

/-- Throughout a run each payload block has exactly one owner, and is freed once, if and
only if each frame posts its `web_msg_t` and no copy of constellation samples is
handled. -/
theorem payloads_owned_iff {s : State} {trs : List (Transition State Label)}
    (h : Run Step startState trs s) :
    (∀ tr ∈ trs, PayloadsOwned tr.before ∧ PayloadsOwned tr.after) ↔
      ∀ tr ∈ trs, KeepsOwner tr.before tr.label := by
  have hkeep : ∀ a l b, Inv a → KeepsOwner a l → Step a l b →
      Inv b ∧ (PayloadsOwned a ∧ PayloadsOwned b) := by
    intro a l b ha hguard hstep
    have hb := ha.step hguard hstep
    exact ⟨hb, payloadsOwned_iff.mpr ha.owned, payloadsOwned_iff.mpr hb.owned⟩
  have hbreak : ∀ a l b, Inv a → ¬ KeepsOwner a l → Step a l b →
      ¬ (PayloadsOwned a ∧ PayloadsOwned b) :=
    fun a l b ha hguard hstep howned => not_owned_step ha hguard hstep howned.2
  exact h.forall_good_iff hkeep hbreak inv_started

/-- An RF request and its answer. -/
theorem payloads_owned_rf_answer :
    ∃ trs s, Run Step startState trs s ∧ s.freed = [0, 1, 2] ∧
      ∀ tr ∈ trs, PayloadsOwned tr.before ∧ PayloadsOwned tr.after := by
  obtain ⟨trs, s, hs, hfreed⟩ :
      ∃ trs s, replay (attempt (fun s l => KeepsOwner s l ∧ Possible s l) execute) startState
          [.frame 83, .take, .finish, .rfAnswer, .take, .finish] = some (trs, s) ∧
        s.freed = [0, 1, 2] := ⟨_, _, rfl, rfl⟩
  obtain ⟨hrun, hguard⟩ := run_of_guarded_attempts hs
  exact ⟨trs, s, hrun, hfreed, (payloads_owned_iff hrun).mpr hguard⟩

/-- With the queue empty the `web_msg_t` of a keep-alive is left, which is answered at
once, and so is a copy of samples whose handler is done. -/
theorem blocks_left_behind :
    ∃ trs s, Run Step startState trs s ∧ s.queue = [] ∧ s.handling = none ∧
      s.allocated = 2 ∧ s.freed = [] ∧ ¬ PayloadsOwned s := by
  obtain ⟨gDma, -, trs, s, hs, hqueue, hhandling, hallocated, hfreed⟩ :
      ∃ gDma, GwWeb.DmaHandler.createDmaHandler true = some gDma ∧
        ∃ trs s, replay (attempt Possible execute) startState
            [.frame 201, .iqCallback [1, 2] { gDma with constellationState := 1 }, .take,
              .finish] = some (trs, s) ∧
          s.queue = [] ∧ s.handling = none ∧ s.allocated = 2 ∧ s.freed = [] :=
    ⟨_, rfl, _, _, rfl, rfl, rfl, rfl, rfl⟩
  refine ⟨trs, s, run_of_attempts hs, hqueue, hhandling, hallocated, hfreed, fun howned => ?_⟩
  have hmem := (howned.live 0).mp ⟨by omega, by simp [hfreed]⟩
  simp [referenced, pending, hqueue, hhandling] at hmem

end GwWeb.PayloadOwnership
