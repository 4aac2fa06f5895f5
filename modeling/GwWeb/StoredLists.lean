import GwWeb.EventProcess
import GwWeb.ListHead
import Mathlib.Data.List.Find

/-!
The node lists of the three modules, in memory: their searches and their unlinking
loops do to the rings what the modules do to their lists.
-/

namespace GwWeb.StoredLists

open RingLists
open ListHead
open GwWeb.WebCommon
open GwWeb.Server
open GwWeb.MosquittoBroker
open GwWeb.DmaHandler

variable {α : Type}

/-- The nodes of a list stand in a ring, and hold `key` in the field that the loops
compare. -/
structure Stored (h : Heap) (head : Nat) (field : Nat → Int) (addr : α → Nat) (key : α → Int)
    (l : List α) : Prop where
  ring : Ring h head (l.map addr)
  field_eq : ∀ x ∈ l, field (addr x) = key x

/-- The unlinking loop turns the ring of `before` into the ring of `after`, and
leaves `entry` behind. -/
def UnlinksTo (h : Heap) (head : Nat) (field : Nat → Int) (c : Int) (before after : List Nat)
    (entry : Option Nat) : Prop :=
  ∀ fuel, before.length < fuel → ∃ w,
    listForEachSafe (fun a => field a = c) head fuel h = some w ∧ w.entry = entry ∧
      Ring w.heap head after ∧ Frame h w.heap (head :: before)

theorem unlinkLoop_map (addr : α → Nat) {p : α → Bool} {q : Nat → Bool} {l : List α}
    (hq : ∀ x ∈ l, q (addr x) = p x) (cursor : Option α) :
    (FirstMatch.unlinkLoop q (l.map addr) (cursor.map addr)).list =
        (FirstMatch.unlinkLoop p l cursor).list.map addr ∧
      (FirstMatch.unlinkLoop q (l.map addr) (cursor.map addr)).cursor =
        (FirstMatch.unlinkLoop p l cursor).cursor.map addr := by
  induction l generalizing cursor with
  | nil => exact ⟨rfl, rfl⟩
  | cons x l ih =>
      have hx := hq x List.mem_cons_self
      obtain ⟨hlist, hcursor⟩ := ih (fun y hy => hq y (List.mem_cons_of_mem _ hy)) (some x)
      rw [Option.map_some] at hlist hcursor
      by_cases hp : p x = true
      · simp [FirstMatch.unlinkLoop, hx, hp]
      · simp only [FirstMatch.unlinkLoop, List.map_cons, hx, hp, Bool.false_eq_true, if_false]
        exact ⟨by rw [hlist], hcursor⟩

variable {h : Heap} {head : Nat} {field : Nat → Int}

theorem Stored.unlinksTo {addr : α → Nat} {key : α → Int} {l : List α}
    (hstored : Stored h head field addr key l) (c : Int) :
    UnlinksTo h head field c (l.map addr)
      ((FirstMatch.unlinkLoop (fun x => key x = c) l none).list.map addr)
      ((FirstMatch.unlinkLoop (fun x => key x = c) l none).cursor.map addr) := by
  intro fuel hfuel
  obtain ⟨h', hwalk, hring, hframe⟩ :=
    listForEachSafe_spec (fun a => field a = c) hstored.ring hfuel
  obtain ⟨hlist, hcursor⟩ := unlinkLoop_map addr (p := fun x => decide (key x = c))
    (q := fun a => decide (field a = c)) (l := l)
    (fun x hx => by rw [hstored.field_eq x hx]) none
  rw [Option.map_none] at hlist hcursor
  rw [hlist] at hring
  exact ⟨_, hwalk, hcursor, hring, hframe⟩

theorem Stored.find {addr : α → Nat} {key : α → Int} {l : List α}
    (hstored : Stored h head field addr key l) (c : Int) {fuel : Nat} (hfuel : l.length < fuel) :
    listForEachEntry (fun a => field a = c) head fuel h =
      some ((l.find? fun x => key x = c).map addr) := by
  rw [listForEachEntry_spec _ hstored.ring (by simpa using hfuel), List.find?_map]
  have hsame : ∀ x ∈ l, ((fun a => decide (field a = c)) ∘ addr) x = decide (key x = c) :=
    fun x hx => by rw [Function.comp_apply, hstored.field_eq x hx]
  rw [List.find?_congr hsame]

/-- The node that the unlinking loops of the modules leave in their cursor. -/
def lastLooked (c : Int) (l : List UserNode) : Option Nat :=
  (FirstMatch.unlinkLoop (fun n => n.connfd = c) l none).cursor.map UserNode.addr

theorem freed_of_unlinkRssiUserNode {c : Int} {g g' : GBrokerPara}
    (h : unlinkRssiUserNode c g = .ok g') {a : Nat} (hfreed : g'.freed = a :: g.freed) :
    lastLooked c g.rssiUserNodeHead = some a := by
  unfold unlinkRssiUserNode releaseNode at h
  dsimp only at h
  unfold lastLooked
  split at h
  · obtain rfl := Except.ok.inj h
    simp at hfreed
  · rename_i n hcursor
    rw [hcursor]
    split at h
    · split at h
      · obtain rfl := Except.ok.inj h
        simpa using hfreed
      · obtain rfl := Except.ok.inj h
        simp at hfreed
    · cases h

/-- The search by descriptor, and the four loops that unlink a node by its
descriptor: in memory they leave the list that the model has, and they free what
the model frees. Each module numbers its nodes by itself; `place` gives the addresses in
memory of the nodes of each list. -/
theorem routines_in_memory (c rc : Int) (server : GServerPara) (broker : GBrokerPara)
    (dma : GDmaPara) (heads : Fin 4 → Nat) (place : Fin 4 → Nat → Nat)
    (hserver : Stored h (heads 0) field (fun n => place 0 n.addr) UserSessionNode.connfd
      server.userSessionNodeHead)
    (hrssi : Stored h (heads 1) field (fun n => place 1 n.addr) UserNode.connfd
      broker.rssiUserNodeHead)
    (hcsi : Stored h (heads 2) field (fun n => place 2 n.addr) UserNode.connfd
      dma.csiUserNodeHead)
    (hconstell : Stored h (heads 3) field (fun n => place 3 n.addr) UserNode.connfd
      dma.constellUserNodeHead) :
    (∀ fuel, server.userSessionNodeHead.length < fuel →
      listForEachEntry (fun a => field a = c) (heads 0) fuel h =
        some ((findUserNodeByConnfd c server).map fun n => place 0 n.addr)) ∧
    UnlinksTo h (heads 0) field c ((connected server).map (place 0))
      ((connected (delUserNodeInList c server).1).map (place 0))
      ((delUserNodeInList c server).2.map fun n => place 0 n.addr) ∧
    (∀ g', unlinkRssiUserNode c broker = .ok g' →
      UnlinksTo h (heads 1) field c (broker.rssiUserNodeHead.map fun n => place 1 n.addr)
          (g'.rssiUserNodeHead.map fun n => place 1 n.addr)
          ((lastLooked c broker.rssiUserNodeHead).map (place 1)) ∧
        ∀ a, g'.freed = a :: broker.freed → lastLooked c broker.rssiUserNodeHead = some a) ∧
    (UnlinksTo h (heads 2) field c (dma.csiUserNodeHead.map fun n => place 2 n.addr)
        ((stopCsiStateExternal c rc dma).csiUserNodeHead.map fun n => place 2 n.addr)
        ((lastLooked c dma.csiUserNodeHead).map (place 2)) ∧
      (stopCsiStateExternal c rc dma).csiFreed =
        (lastLooked c dma.csiUserNodeHead).toList ++ dma.csiFreed) ∧
    UnlinksTo h (heads 3) field c (dma.constellUserNodeHead.map fun n => place 3 n.addr)
        ((stopConstellationExternal c rc dma).constellUserNodeHead.map fun n => place 3 n.addr)
        ((lastLooked c dma.constellUserNodeHead).map (place 3)) ∧
      (stopConstellationExternal c rc dma).constellFreed =
        (lastLooked c dma.constellUserNodeHead).toList ++ dma.constellFreed := by
  have hentry : ∀ (i : Fin 4) (l : List UserNode), (lastLooked c l).map (place i) =
      (FirstMatch.unlinkLoop (fun n => n.connfd = c) l none).cursor.map
        fun n => place i n.addr := by
    intro i l
    rw [lastLooked, Option.map_map]
    rfl
  refine ⟨fun fuel hfuel => hserver.find c hfuel, ?_, fun g' hunlink => ⟨?_, ?_⟩, ⟨?_, ?_⟩, ?_, ?_⟩
  · rw [connected, connected, List.map_map, List.map_map]
    exact hserver.unlinksTo c
  · obtain ⟨freed, confirmDelete, rfl⟩ := releaseNode_ok hunlink
    rw [hentry]
    exact hrssi.unlinksTo c
  · exact fun a hfreed => freed_of_unlinkRssiUserNode hunlink hfreed
  · rw [stopCsiStateExternal_eq, hentry]
    exact hcsi.unlinksTo c
  · rw [stopCsiStateExternal_eq]
    rfl
  · rw [stopConstellationExternal_eq, hentry]
    exact hconstell.unlinksTo c
  · rw [stopConstellationExternal_eq]
    rfl

/-- The heads of the four lists at 0 to 3, and two nodes behind each, from 4 on. -/
def eightNodes : Heap where
  allocated a := a < 12
  next a := some (if a < 4 then 4 + 2 * a else if a % 2 = 0 then a + 1 else (a - 5) / 2)
  prev a := some (if a < 4 then 5 + 2 * a else if a % 2 = 0 then (a - 4) / 2 else a - 1)

/-- Descriptors for two connections, by the parity of the address. -/
def evenIsSeven (a : Nat) : Int := if a % 2 = 0 then 7 else 8

theorem eightNodes_ring (i : Fin 4) :
    Ring eightNodes i.val [4 + 2 * i.val + 0, 4 + 2 * i.val + 1] := by
  refine ⟨?_, ?_, ?_⟩ <;> revert i <;> decide

theorem eightNodes_stored {α : Type} {addr : α → Nat} {key : α → Int} (i : Fin 4) (x y : α)
    (hx : addr x = 4 + 2 * i.val + 0) (hy : addr y = 4 + 2 * i.val + 1) (hkey : key x = 7)
    (hkey' : key y = 8) : Stored eightNodes i.val evenIsSeven addr key [x, y] := by
  refine ⟨?_, ?_⟩
  · rw [List.map_cons, List.map_cons, List.map_nil, hx, hy]
    exact eightNodes_ring i
  · simp only [List.forall_mem_cons, hx, hy, hkey, hkey', evenIsSeven]
    refine ⟨?_, ?_, by simp⟩
    · rw [if_pos (by omega)]
    · rw [if_neg (by omega)]

/-- Connections 7 and 8 in all four lists, and 8 goes: each loop leaves 7, and frees the
second node. -/
theorem routines_in_memory_two_connections :
    let twice : List UserNode := [⟨0, 7⟩, ⟨1, 8⟩]
    let server := addNewUserNodeToList 8 (addNewUserNodeToList 7 createServerThread)
    let json : ControlJson := { dst := "rf", timer := "1" }
    let s := EventProcess.startState json json
    let broker := { s.broker with rssiUserNodeHead := twice }
    let dma := { s.dma with csiUserNodeHead := twice, constellUserNodeHead := twice }
    UnlinksTo eightNodes 0 evenIsSeven 8 [4, 5] [4] (some 5) ∧
      (∀ g', unlinkRssiUserNode 8 broker = .ok g' →
        UnlinksTo eightNodes 1 evenIsSeven 8 [6, 7] (g'.rssiUserNodeHead.map fun n => 6 + n.addr)
          (some 7)) ∧
      UnlinksTo eightNodes 2 evenIsSeven 8 [8, 9] [8] (some 9) ∧
      (stopCsiStateExternal 8 0 dma).csiFreed = [1] ∧
      UnlinksTo eightNodes 3 evenIsSeven 8 [10, 11] [10] (some 11) ∧
      connected (delUserNodeInList 8 server).1 = [0] := by
  intro twice server json s broker dma
  have hall := routines_in_memory 8 0 server broker dma (fun i => i.val)
    (fun i a => 4 + 2 * i.val + a) (eightNodes_stored 0 _ _ rfl rfl rfl rfl)
    (eightNodes_stored 1 _ _ rfl rfl rfl rfl) (eightNodes_stored 2 _ _ rfl rfl rfl rfl)
    (eightNodes_stored 3 _ _ rfl rfl rfl rfl)
  obtain ⟨-, hserver, hrssi, ⟨hcsi, hfreed⟩, hconstell, -⟩ := hall
  exact ⟨hserver, fun g' hunlink => (hrssi g' hunlink).1, hcsi, hfreed, hconstell, rfl⟩

end GwWeb.StoredLists
