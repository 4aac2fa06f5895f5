import Mathlib.Data.List.Perm.Basic
import GwWeb.RequestFields
import GwWeb.SequentialReads
import GwWeb.TransitionRuns

/-!
`rf_module.c` with `inquiry_RF_state_wrapper`: the event loop changes the RF settings
while any number of worker threads put RF information together, one entry after the
other.
-/

namespace GwWeb.RfSettings

open SequentialReads
open TransitionRuns
open GwWeb.WebCommon
open GwWeb.RequestFields

/-- The settings of `rf_module.c`. -/
structure Settings where
  frequencyRf : BitVec 32
  txPowerState : Int
  rxGainState : Int

/-- What `createBroker` sets. -/
def initSettings : Settings := { frequencyRf := 757555, txPowerState := 0, rxGainState := 0 }

/-- The entries of an answer. -/
inductive RfEntry where
  | frequency
  | power
  | txPower
  | rxGain
  | localLockState
  | rfTemper
  | rfCurrent
  | bbCurrent
  | deviceTemper
  | bbVs
  | adcTemper
  | zynqTemper
  deriving DecidableEq

/-- The name of an entry in the answer. -/
def RfEntry.name : RfEntry → String
  | .frequency => "frequency"
  | .power => "power"
  | .txPower => "tx_power"
  | .rxGain => "rx_gain"
  | .localLockState => "local_lock_state"
  | .rfTemper => "rf_temper"
  | .rfCurrent => "rf_current"
  | .bbCurrent => "bb_current"
  | .deviceTemper => "device_temper"
  | .bbVs => "bb_vs"
  | .adcTemper => "adc_temper"
  | .zynqTemper => "zynq_temper"

/-- The order in which `rf_info_response` adds them. -/
def entries : List RfEntry :=
  [.frequency, .power, .txPower, .rxGain, .localLockState, .rfTemper, .rfCurrent, .bbCurrent,
    .deviceTemper, .bbVs, .adcTemper, .zynqTemper]

variable {D : Type}

/-- The value of an entry. -/
inductive Value (D : Type) where
  | number (n : Int)
  | measured (x : D)

/-- The value of an entry; the register and `xadc` bring `x`. The i2c calls of the seven
others are commented out, and each returns the -1 it starts with. -/
def reading (s : Settings) (x : D) : RfEntry → Value D
  | .frequency => .number s.frequencyRf.toInt
  | .power => .measured x
  | .txPower => .number s.txPowerState
  | .rxGain => .number s.rxGainState
  | .localLockState | .rfTemper | .rfCurrent | .bbCurrent | .deviceTemper | .bbVs
  | .adcTemper => .number (-1)
  | .zynqTemper => .measured x

/-- A value that the device has under these settings. -/
def Shows (s : Settings) (e : RfEntry) (v : Value D) : Prop := ∃ x, v = reading s x e

/-- The JSON object of `rf_info_response`. -/
structure RfInfo (D : Type) where
  comment : String
  type : Int
  arrayNumber : Nat
  retValue : List (String × Value D)

/-- A worker thread inside `rf_info_response`. It was started when the settings had
changed `asked` times. -/
structure Worker (D : Type) where
  nodeId : Int
  array : List (RfEntry × Value D)
  arryNum : Nat
  asked : Nat

/-- An `MST_RF_INFO_READY` message, posted when the settings had changed `posted`
times. -/
structure Answer (D : Type) where
  nodeId : Int
  array : List (RfEntry × Value D)
  arryNum : Nat
  asked : Nat
  posted : Nat

def Answer.response (a : Answer D) : RfInfo D where
  comment := "RF_info"
  type := 84
  arrayNumber := a.arryNum
  retValue := a.array.map fun e => (e.1.name, e.2)

/-- `past` are the earlier settings. `sent` are the answers that the loop has taken from
the queue, and `inquiries` the requests that it has given to a worker. -/
structure State (D : Type) where
  past : List Settings
  settings : Settings
  workers : List (Worker D)
  ready : List (Answer D)
  sent : List (Answer D)
  inquiries : List Int

/-- The settings from the start on. -/
def State.stores (s : State D) : List Settings := s.past ++ [s.settings]

/-- A setting is stored. -/
def State.change (settings : Settings) (s : State D) : State D :=
  { s with past := s.past ++ [s.settings], settings }

/-- A message of the loop, or a step of a worker. -/
inductive Label (D : Type) where
  | rfFreqSetting (json : CJson)
  | openTxPower
  | closeTxPower
  | openRxGain
  | closeRxGain
  | inquiryRfInfo (userNodeId : Int)
  | read (k : Nat) (x : D)
  | post (k : Nat)
  | rfInfoReady

/-- The next `cJSON_AddItemToArray` of a worker. -/
def readEntry (settings : Settings) (x : D) (w : Worker D) : Worker D :=
  match entries[w.arryNum]? with
  | none => w
  | some e => { w with array := w.array ++ [(e, reading settings x e)], arryNum := w.arryNum + 1 }

/-- `MSG_INQUIRY_RF_INFO`, up to `AddWorker`. -/
def postRfWorkToThreadPool (userNodeId : Int) (s : State D) : State D :=
  { s with
    workers := s.workers ++
      [{ nodeId := userNodeId, array := [], arryNum := 0, asked := s.past.length }]
    inquiries := s.inquiries ++ [userNodeId] }

/-- The end of `inquiry_RF_state_wrapper`. -/
def postAnswer (k : Nat) (s : State D) : State D :=
  match s.workers[k]? with
  | none => s
  | some w =>
      { s with
        workers := s.workers.eraseIdx k
        ready := s.ready ++
          [{ nodeId := w.nodeId, array := w.array, arryNum := w.arryNum, asked := w.asked,
             posted := s.past.length }] }

/-- `MST_RF_INFO_READY`. -/
def handleRfInfoReady (s : State D) : State D :=
  match s.ready with
  | [] => s
  | a :: ready => { s with ready, sent := s.sent ++ [a] }

def execute (s : State D) : Label D → Except Fault (State D)
  | .rfFreqSetting json => do
      let frequencyRf ← processRfFreqSetting json
      return s.change { s.settings with frequencyRf }
  | .openTxPower => .ok (s.change { s.settings with txPowerState := 1 })
  | .closeTxPower => .ok (s.change { s.settings with txPowerState := 0 })
  | .openRxGain => .ok (s.change { s.settings with rxGainState := 1 })
  | .closeRxGain => .ok (s.change { s.settings with rxGainState := 0 })
  | .inquiryRfInfo userNodeId => .ok (postRfWorkToThreadPool userNodeId s)
  | .read k x => .ok { s with workers := s.workers.modify k (readEntry s.settings x) }
  | .post k => .ok (postAnswer k s)
  | .rfInfoReady => .ok (handleRfInfoReady s)

/-- A worker posts when all entries are there. -/
def Possible (s : State D) : Label D → Prop
  | .post k => ∀ w ∈ s.workers[k]?, entries.length ≤ w.arryNum
  | _ => True

abbrev Step : State D → Label D → State D → Prop := Executes Possible execute

instance (s : State D) (l : Label D) : Decidable (Possible s l) :=
  match l with
  | .post k => inferInstanceAs (Decidable (∀ w ∈ s.workers[k]?, entries.length ≤ w.arryNum))
  | .rfFreqSetting _ | .openTxPower | .closeTxPower | .openRxGain | .closeRxGain
  | .inquiryRfInfo _ | .read _ _ | .rfInfoReady => isTrue trivial

structure Started (s : State D) : Prop where
  past : s.past = []
  settings : s.settings = initSettings
  workers : s.workers = []
  ready : s.ready = []
  sent : s.sent = []
  inquiries : s.inquiries = []

section Invariant

variable {s₀ s s' : State D} {l : Label D}

theorem stores_change (settings : Settings) (s : State D) :
    (s.change settings).stores = s.stores ++ [settings] := rfl

theorem stores_now (s : State D) : s.stores[s.past.length]? = some s.settings := by
  rw [State.stores, List.getElem?_append_right (Nat.le_refl _), Nat.sub_self]
  rfl

/-- The entries that a worker has so far, off the settings since it was asked. -/
structure Worker.Kept (stores : List Settings) (now : Nat) (w : Worker D) : Prop where
  names : w.array.map Prod.fst = entries.take w.arryNum
  count : w.arryNum ≤ entries.length
  sampled : Sampled Shows stores w.asked w.array now

/-- An answer is complete, and each entry was read under settings in force while it was made. -/
structure Answer.Kept (stores : List Settings) (now : Nat) (a : Answer D) : Prop where
  names : a.array.map Prod.fst = entries
  count : a.arryNum = entries.length
  sampled : Sampled Shows stores a.asked a.array a.posted
  posted : a.posted ≤ now

/-- What workers and answers hold was in force when it was read. -/
structure Kept (s : State D) : Prop where
  workers : ∀ w ∈ s.workers, w.Kept s.stores s.past.length
  answers : ∀ a ∈ s.ready ++ s.sent, a.Kept s.stores s.past.length
  counted : (s.workers.map Worker.nodeId ++ (s.ready ++ s.sent).map Answer.nodeId).Perm s.inquiries

theorem Started.kept (h : Started s) : Kept s where
  workers := by simp [h.workers]
  answers := by simp [h.ready, h.sent]
  counted := by simp [h.workers, h.ready, h.sent, h.inquiries]

theorem Kept.change (h : Kept s) (settings : Settings) : Kept (s.change settings) where
  workers := by
    intro w hw
    obtain ⟨hnames, hcount, hsampled⟩ := h.workers w hw
    refine ⟨hnames, hcount, (hsampled.extend [settings]).wait ?_⟩
    show s.past.length ≤ (s.past ++ [s.settings]).length
    rw [List.length_append]
    exact Nat.le_add_right _ _
  answers := by
    intro a ha
    obtain ⟨hnames, hcount, hsampled, hposted⟩ := h.answers a ha
    refine ⟨hnames, hcount, hsampled.extend [settings], hposted.trans ?_⟩
    show s.past.length ≤ (s.past ++ [s.settings]).length
    rw [List.length_append]
    exact Nat.le_add_right _ _
  counted := h.counted

theorem Worker.Kept.readEntry {w : Worker D} (h : w.Kept s.stores s.past.length) (x : D) :
    (readEntry s.settings x w).Kept s.stores s.past.length := by
  unfold RfSettings.readEntry
  split
  · exact h
  · rename_i e he
    obtain ⟨hlt, -⟩ := List.getElem?_eq_some_iff.mp he
    refine ⟨?_, hlt, h.sampled.read (stores_now s) ⟨x, rfl⟩⟩
    rw [List.map_append, h.names, List.take_add_one, he]
    rfl

theorem Kept.inquiry (h : Kept s) (userNodeId : Int) :
    Kept (postRfWorkToThreadPool userNodeId s) where
  workers := by
    intro w hw
    rcases List.mem_append.mp hw with hw | hw
    · exact h.workers w hw
    · obtain rfl := List.mem_singleton.mp hw
      exact ⟨rfl, Nat.zero_le _, .start⟩
  answers := h.answers
  counted := by
    show ((s.workers ++ [_]).map Worker.nodeId ++ _).Perm (s.inquiries ++ [userNodeId])
    rw [List.map_append, List.append_assoc]
    refine (List.perm_append_comm.append_left _).trans ?_
    rw [← List.append_assoc]
    exact h.counted.append_right _

theorem Kept.read (h : Kept s) (k : Nat) (x : D) :
    Kept { s with workers := s.workers.modify k (readEntry s.settings x) } := by
  rcases Nat.lt_or_ge k s.workers.length with hk | hk
  · obtain ⟨before, w, after, hworkers, -, hmodify⟩ :=
      List.exists_of_modify (readEntry s.settings x) hk
    have hmem : ∀ v ∈ before ++ w :: after, v.Kept s.stores s.past.length := hworkers ▸ h.workers
    constructor
    · intro v hv
      change v ∈ s.workers.modify k _ at hv
      rw [hmodify] at hv
      rcases List.mem_append.mp hv with hv | hv
      · exact hmem v (List.mem_append_left _ hv)
      · rcases List.mem_cons.mp hv with rfl | hv
        · exact (hmem w (by simp)).readEntry x
        · exact hmem v (by simp [hv])
    · exact h.answers
    · have hid : (readEntry s.settings x w).nodeId = w.nodeId := by
        unfold readEntry
        split <;> rfl
      have hcounted := h.counted
      rw [hworkers, List.map_append, List.map_cons, ← hid, ← List.map_cons, ← List.map_append,
        ← hmodify] at hcounted
      exact hcounted
  · rw [List.modify_eq_self hk]
    exact h

theorem Worker.Kept.answer {w : Worker D} (h : w.Kept s.stores s.past.length)
    (hall : entries.length ≤ w.arryNum) :
    Answer.Kept s.stores s.past.length
      { nodeId := w.nodeId, array := w.array, arryNum := w.arryNum, asked := w.asked,
        posted := s.past.length } where
  names := by rw [h.names, List.take_of_length_le hall]
  count := Nat.le_antisymm h.count hall
  sampled := h.sampled
  posted := Nat.le_refl _

theorem Kept.post (h : Kept s) {k : Nat} (hpossible : Possible s (.post k)) :
    Kept (postAnswer k s) := by
  unfold postAnswer
  split
  · exact h
  · rename_i w hw
    obtain ⟨hk, hget⟩ := List.getElem?_eq_some_iff.mp hw
    have hperm : (w :: s.workers.eraseIdx k).Perm s.workers := by
      rw [← hget]
      exact List.getElem_cons_eraseIdx_perm hk
    constructor
    · exact fun v hv => h.workers v (List.mem_of_mem_eraseIdx hv)
    · intro a ha
      rcases List.mem_append.mp ha with ha | ha
      · rcases List.mem_append.mp ha with ha | ha
        · exact h.answers a (List.mem_append_left _ ha)
        · obtain rfl := List.mem_singleton.mp ha
          exact (h.workers w (List.mem_of_getElem? hw)).answer (hpossible w hw)
      · exact h.answers a (List.mem_append_right _ ha)
    · refine List.Perm.trans ?_ h.counted
      refine List.Perm.trans ?_ ((hperm.map Worker.nodeId).append_right _)
      have hready : ∀ a : Answer D, (s.ready ++ [a] ++ s.sent).Perm (a :: (s.ready ++ s.sent)) := by
        intro a
        rw [List.append_assoc]
        exact List.perm_middle
      exact (((hready _).map Answer.nodeId).append_left _).trans List.perm_middle

theorem Kept.handled (h : Kept s) : Kept (handleRfInfoReady s) := by
  unfold handleRfInfoReady
  split
  · exact h
  · rename_i a ready hready
    have hperm : (ready ++ (s.sent ++ [a])).Perm (s.ready ++ s.sent) := by
      rw [hready, List.cons_append, ← List.append_assoc]
      exact List.perm_append_singleton a _
    constructor
    · exact h.workers
    · exact fun b hb => h.answers b (hperm.mem_iff.mp hb)
    · exact ((hperm.map Answer.nodeId).append_left _).trans h.counted

theorem Kept.step (h : Kept s) (hstep : Step s l s') : Kept s' := by
  obtain ⟨hpossible, hexecute⟩ := hstep
  cases l with
  | rfFreqSetting json =>
      obtain ⟨frequencyRf, -, hexecute⟩ := bind_eq_ok.mp hexecute
      obtain rfl := Except.ok.inj hexecute
      exact h.change _
  | openTxPower | closeTxPower | openRxGain | closeRxGain =>
      obtain rfl := Except.ok.inj hexecute
      exact h.change _
  | inquiryRfInfo userNodeId =>
      obtain rfl := Except.ok.inj hexecute
      exact h.inquiry userNodeId
  | read k x =>
      obtain rfl := Except.ok.inj hexecute
      exact h.read k x
  | post k =>
      obtain rfl := Except.ok.inj hexecute
      exact h.post hpossible
  | rfInfoReady =>
      obtain rfl := Except.ok.inj hexecute
      exact h.handled

theorem eq_reading {settings : Settings} {e : RfEntry × Value D} {entry : RfEntry}
    (hname : e.1 = entry) (hshows : Shows settings e.1 e.2) :
    ∃ x, e = (entry, reading settings x entry) := by
  obtain ⟨x, hx⟩ := hshows
  exact ⟨x, Prod.ext hname (hname ▸ hx)⟩

/-- The settings in an answer were in force since it was asked for, each of them not
before the one in front of it. -/
def InForce (stores : List Settings) (a : Answer D) : Prop :=
  ∃ i j k f g r, a.asked ≤ i ∧ i ≤ j ∧ j ≤ k ∧ k ≤ a.posted ∧
    stores[i]? = some f ∧ (.frequency, .number f.frequencyRf.toInt) ∈ a.array ∧
    stores[j]? = some g ∧ (.txPower, .number g.txPowerState) ∈ a.array ∧
    stores[k]? = some r ∧ (.rxGain, .number r.rxGainState) ∈ a.array

theorem Answer.Kept.inForce {stores : List Settings} {now : Nat} {a : Answer D}
    (h : a.Kept stores now) : InForce stores a := by
  obtain ⟨frequency, array₁, harray, hfrequency, hnames⟩ := List.map_eq_cons_iff.mp h.names
  obtain ⟨power, array₂, rfl, -, hnames⟩ := List.map_eq_cons_iff.mp hnames
  obtain ⟨txPower, array₃, rfl, htxPower, hnames⟩ := List.map_eq_cons_iff.mp hnames
  obtain ⟨rxGain, array₄, rfl, hrxGain, -⟩ := List.map_eq_cons_iff.mp hnames
  obtain ⟨i, f, hi, hf, hshows₁, hbehind₁⟩ := h.sampled.split [] harray
  obtain ⟨j, g, hj, hg, hshows₂, hbehind₂⟩ := hbehind₁.split [power] rfl
  obtain ⟨k, r, hk, hr, hshows₃, hbehind₃⟩ := hbehind₂.split [] rfl
  obtain ⟨x, rfl⟩ := eq_reading hfrequency hshows₁
  obtain ⟨y, rfl⟩ := eq_reading htxPower hshows₂
  obtain ⟨z, rfl⟩ := eq_reading hrxGain hshows₃
  rw [InForce, harray]
  exact ⟨i, j, k, f, g, r, hi.le, hj.le, hk.le, hbehind₃.le, hf, by simp [reading], hg,
    by simp [reading], hr, by simp [reading]⟩

end Invariant

def startState : State Nat :=
  { past := [], settings := initSettings, workers := [], ready := [], sent := [], inquiries := [] }

end GwWeb.RfSettings
