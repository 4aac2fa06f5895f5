import GwWeb.FlaggedNodes
import GwWeb.SlotRuns

/-!
The sessions with a save flag and the save nodes of a service, as a desk of flagged
nodes.
-/

namespace GwWeb.SaveFlags

open FirstMatch
open FlaggedNodes
open GwWeb.WebCommon
open GwWeb.Server
open GwWeb.EventProcess
open GwWeb.WriteSlots
open GwWeb.SlotRuns

/-- There is a node, and it records. -/
def Records (w : WriteComponent) (node : Option UserNode) : Prop := ∃ u ∈ node, Runs w u.addr

instance (w : WriteComponent) (node : Option UserNode) : Decidable (Records w node) :=
  inferInstanceAs (Decidable (∃ u ∈ node, Runs w u.addr))

section Desks

variable {flag : RecordAction → Int} {sessions : List UserSessionNode} {nodes : List UserNode}
  {w w' : WriteComponent} {connfd : Int}

/-- The sessions with one of their save flags, and the nodes of that service. -/
def desk (flag : RecordAction → Int) (sessions : List UserSessionNode) (nodes : List UserNode)
    (w : WriteComponent) : Desk Int Nat where
  flags := sessions.map fun n => (n.connfd, flag n.recordAction)
  nodes := nodes.map fun u => (u.connfd, u.addr)
  running := Runs w

/-- The RSSI save flags and user nodes. -/
def rssiDesk (s : State) : Desk Int Nat :=
  desk RecordAction.enableRssiSave s.server.userSessionNodeHead s.broker.rssiUserNodeHead
    s.broker.save

def csiDesk (s : State) : Desk Int Nat :=
  desk RecordAction.enableCsiSave s.server.userSessionNodeHead s.dma.csiSaveUserNodeHead
    s.dma.save

theorem find_desk (connfd : Int) :
    (desk flag sessions nodes w).find connfd =
      (nodes.find? fun n => n.connfd = connfd).map fun u => (u.connfd, u.addr) := by
  simp only [Desk.find, desk, List.find?_map]
  rfl

theorem find_desk_eq_some {x : Int × Nat} :
    (desk flag sessions nodes w).find connfd = some x ↔
      ∃ u, (nodes.find? fun n => n.connfd = connfd) = some u ∧ (u.connfd, u.addr) = x := by
  rw [find_desk, Option.map_eq_some_iff]

theorem saves_desk (connfd : Int) :
    (desk flag sessions nodes w).Saves connfd ↔
      Records w (nodes.find? fun n => n.connfd = connfd) := by
  constructor
  · rintro ⟨x, hx, hrun⟩
    obtain ⟨u, hu, rfl⟩ := find_desk_eq_some.mp hx
    exact ⟨u, hu, hrun⟩
  · rintro ⟨u, hu, hrun⟩
    exact ⟨_, find_desk_eq_some.mpr ⟨u, hu, rfl⟩, hrun⟩

theorem matched_desk :
    (desk flag sessions nodes w).Matched ↔
      ∀ n ∈ sessions, flag n.recordAction ≠ 0 ↔
        Records w (nodes.find? fun u => u.connfd = n.connfd) := by
  have hsaves : ∀ connfd, (desk flag sessions nodes w).Saves connfd ↔
      Records w (nodes.find? fun u => u.connfd = connfd) := saves_desk
  unfold Desk.Matched
  simp only [hsaves]
  exact List.forall_mem_map

theorem sessions_desk (connfd : Int) :
    (desk flag sessions nodes w).sessions connfd =
      sessions.countP fun n => n.connfd = connfd := by
  simp only [Desk.sessions, desk, List.countP_map]
  rfl

theorem desk_congr (hruns : ∀ a, Runs w' a ↔ Runs w a) :
    desk flag sessions nodes w' = desk flag sessions nodes w := by
  unfold desk
  rw [funext fun a => propext (hruns a)]

theorem desk_enter (hinitial : flag .initial = 0) (g : GServerPara) :
    desk flag (addNewUserNodeToList connfd g).userSessionNodeHead nodes w =
      (desk flag g.userSessionNodeHead nodes w).enter connfd := by
  simp [desk, Desk.enter, addNewUserNodeToList, hinitial]

theorem desk_append (u : UserNode) :
    desk flag sessions (nodes ++ [u]) w =
      (desk flag sessions nodes w).append u.connfd u.addr := by
  simp [desk, Desk.append]

theorem nodes_desk_eraseP {sessions' : List UserSessionNode} {nodes' : List UserNode}
    {p : Int × Nat → Bool}
    (hnodes : nodes' = nodes ∨ nodes' = nodes.eraseP fun u => p (u.connfd, u.addr)) :
    (desk flag sessions' nodes' w').nodes = (desk flag sessions nodes w).nodes ∨
      (desk flag sessions' nodes' w').nodes = (desk flag sessions nodes w).nodes.eraseP p := by
  rcases hnodes with rfl | rfl
  · exact .inl rfl
  · refine .inr ?_
    simp only [desk]
    rw [List.eraseP_map]
    rfl

theorem flags_recordAction_same (f : RecordAction → RecordAction) (hf : ∀ a, flag (f a) = flag a)
    (g : GServerPara) :
    desk flag (recordAction connfd f g).userSessionNodeHead nodes w =
      desk flag g.userSessionNodeHead nodes w := by
  unfold desk recordAction
  dsimp only
  rw [map_updateFirst]
  intro n hn
  simp [hf]

theorem desk_switches (f : RecordAction → RecordAction) {v : Int} (hf : ∀ a, flag (f a) = v)
    (g : GServerPara) {u : UserNode} (hu : (nodes.find? fun n => n.connfd = connfd) = some u)
    (hothers : ∀ a, a ≠ u.addr → (Runs w' a ↔ Runs w a)) :
    Desk.Switches connfd v (Runs w' u.addr) (desk flag g.userSessionNodeHead nodes w)
      (desk flag (recordAction connfd f g).userSessionNodeHead nodes w') where
  flags := by
    unfold desk recordAction
    dsimp only
    apply map_updateFirst_comm
    · exact fun _ => rfl
    · exact fun _ _ => by rw [hf]
  nodes := rfl
  here := by
    intro x hx
    obtain ⟨u', hu', rfl⟩ := find_desk_eq_some.mp hx
    obtain rfl := Option.some.inj (hu.symm.trans hu')
    exact Iff.rfl
  others := by
    intro a ha
    exact hothers a (ha _ (find_desk_eq_some.mpr ⟨u, hu, rfl⟩)).symm

theorem clears_desk {sessions : List UserSessionNode} {flag : RecordAction → Int} {a : Nat}
    {nodes nodes' : List UserNode} {w w' : WriteComponent}
    (hnodes : nodes' = nodes ∨ nodes' = nodes.eraseP fun n => n.addr = a)
    (hruns : ∀ b, Runs w' b ↔ Runs w b ∧ b ≠ a) :
    Desk.Clears a (desk flag sessions nodes w) (desk flag sessions nodes' w') where
  flags := rfl
  nodes := nodes_desk_eraseP hnodes
  running := hruns

theorem records_some {w : WriteComponent} (u : UserNode) : Records w (some u) ↔ Runs w u.addr := by
  simp [Records]

end Desks

section Sessions

variable {s s' : State} {r : Replies} {connfd : Int}

theorem flags_listed {flag : RecordAction → Int} {nodes : List UserNode} {w : WriteComponent}
    (hin : connfd ∈ sessionConnfds s.server) :
    connfd ∈ (desk flag s.server.userSessionNodeHead nodes w).flags.map Prod.fst := by
  simp only [desk, List.map_map]
  exact hin

theorem rssiDesk_enableBrokerCallback : rssiDesk (enableBrokerCallback s) = rssiDesk s := by
  simp only [rssiDesk, enableBrokerCallback]
  split <;> rfl

theorem csiDesk_enableDmaCallback : csiDesk (enableDmaCallback s) = csiDesk s := by
  simp only [csiDesk, enableDmaCallback]
  split <;> rfl

theorem first_flag (flag : RecordAction → Int) (nodes : List UserNode) (w : WriteComponent)
    {n : UserSessionNode} (hn : findUserNodeByConnfd connfd s.server = some n) :
    ((desk flag s.server.userSessionNodeHead nodes w).flags.find? fun x => x.1 = connfd) =
      some (connfd, flag n.recordAction) := by
  have hconnfd : n.connfd = connfd := by simpa using List.find?_some hn
  unfold desk
  rw [List.find?_map]
  exact (congrArg _ hn).trans (by simp [hconnfd])

theorem desk_leaves {flag : RecordAction → Int} {nodes nodes' : List UserNode}
    {w w' : WriteComponent} {v : Int}
    (hsessions : s'.server.userSessionNodeHead =
      s.server.userSessionNodeHead.eraseP fun n => n.connfd = connfd)
    (hnodes : nodes' = nodes ∨ nodes' = nodes.eraseP fun n => n.connfd = connfd)
    (hstops : Stops v (nodes.find? fun n => n.connfd = connfd) w w') :
    Desk.Leaves connfd v (desk flag s.server.userSessionNodeHead nodes w)
      (desk flag s'.server.userSessionNodeHead nodes' w') where
  flags := by
    unfold desk
    rw [hsessions, List.eraseP_map]
    rfl
  nodes := nodes_desk_eraseP hnodes
  running := by
    intro a
    refine (hstops a).trans (and_congr_right fun _ => forall_congr' fun _ => ?_)
    constructor
    · intro hstop x hx
      obtain ⟨u, hu, rfl⟩ := find_desk_eq_some.mp hx
      exact hstop u hu
    · exact fun hstop u hu => hstop _ (find_desk_eq_some.mpr ⟨u, hu, rfl⟩)

theorem leaves_of_gone {n : UserSessionNode} (h : Gone connfd n r s s') :
    Desk.Leaves connfd n.recordAction.enableRssiSave (rssiDesk s) (rssiDesk s') ∧
      Desk.Leaves connfd n.recordAction.enableCsiSave (csiDesk s) (csiDesk s') := by
  refine ⟨desk_leaves h.sessions ?_ h.broker.stops, desk_leaves h.sessions (.inl h.csiNodes)
    h.csiStops⟩
  rcases h.broker.node with ⟨-, hnodes, -⟩ | ⟨-, u, hu, hreleased⟩
  · exact .inl hnodes
  · have hconnfd : u.connfd = connfd := by simpa using List.find?_some hu
    exact .inr (hconnfd ▸ hreleased.nodes)

theorem kept_gone {n : UserSessionNode} (hrssi : (rssiDesk s).Kept) (hcsi : (csiDesk s).Kept)
    (h : Gone connfd n r s s') : (rssiDesk s').Kept ∧ (csiDesk s').Kept := by
  obtain ⟨hleave, hleave'⟩ := leaves_of_gone h
  exact ⟨hrssi.leave hleave (first_flag _ _ _ h.found),
    hcsi.leave hleave' (first_flag _ _ _ h.found)⟩

end Sessions

end GwWeb.SaveFlags
