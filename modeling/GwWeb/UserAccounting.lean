import GwWeb.BookRuns

/-!
The counters, lists and flags of the three modules agree in every state that a
run of the event loop reaches.
-/

namespace GwWeb.UserAccounting

open CountedService
open MirroredRoster
open Subscription
open TransitionRuns
open GwWeb.WebCommon
open GwWeb.Server
open GwWeb.EventProcess
open GwWeb.UserBook
open GwWeb.BookRefinement
open GwWeb.BookRuns

/-- Each counter is the length of its list. -/
structure CountersExact (s : State) : Prop where
  userSessionCnt : s.server.userSessionCnt = s.server.userSessionNodeHead.length
  rssiUserCnt : s.broker.rssiUserCnt = s.broker.rssiUserNodeHead.length
  csiUserCnt : s.dma.csiUserCnt = s.dma.csiUserNodeHead.length
  csiSaveUserCnt : s.dma.csiSaveUserCnt = s.dma.csiSaveUserNodeHead.length
  constellationUserCnt : s.dma.constellationUserCnt = s.dma.constellUserNodeHead.length

/-- The connfds of `nodes` are distinct, and are those of the sessions whose
`flag` is 1. -/
def ListsFlagged (nodes : List UserNode) (flag : RecordAction → Int) (g : GServerPara) : Prop :=
  (nodes.map UserNode.connfd).Nodup ∧
    ∀ connfd, connfd ∈ nodes.map UserNode.connfd ↔
      ∃ n ∈ g.userSessionNodeHead, n.connfd = connfd ∧ flag n.recordAction = 1

/-- The flag of a session for a service. -/
def recordedFlag : Kind → RecordAction → Int
  | .rssi => RecordAction.enableRssi
  | .csi => RecordAction.enableStartCsi
  | .constell => RecordAction.enableStartConstell

/-- The user nodes of a service. -/
def userNodes (s : State) : Kind → List UserNode
  | .rssi => s.broker.rssiUserNodeHead
  | .csi => s.dma.csiUserNodeHead
  | .constell => s.dma.constellUserNodeHead

theorem service_users (s : State) (k : Kind) :
    ((book s).service k).users = (userNodes s k).map UserNode.connfd := by
  cases k <;> rfl

theorem mem_ledger_iff (s : State) (k : Kind) (connfd : Int) :
    (connfd, true) ∈ ((book s).ledger k).entries ↔
      ∃ n ∈ s.server.userSessionNodeHead,
        n.connfd = connfd ∧ recordedFlag k n.recordAction = 1 := by
  have hflag : ∀ n : UserSessionNode,
      (bookSession n).flag k = recordedFlag k n.recordAction := by
    intro n
    cases k <;> rfl
  simp only [Book.ledger, mem_entries, book, List.mem_map, exists_exists_and_eq_and, hflag]
  rfl

theorem listsFlagged_of_mirrors {s : State} {k : Kind}
    (h : Mirrors (roster ((book s).ledger k))) :
    ListsFlagged (userNodes s k) (recordedFlag k) s.server := by
  have husers : (roster ((book s).ledger k)).members = (userNodes s k).map UserNode.connfd :=
    service_users s k
  have hnodup := h.nodup
  have hmem := h.mem_iff
  rw [husers] at hnodup
  refine ⟨hnodup, fun connfd => ?_⟩
  rw [← mem_ledger_iff, ← husers]
  exact hmem connfd

section Runs

variable {s s' : State} {trs : List (Transition State Label)}

theorem countersExact_of_run (hs : Started s) (h : Run Step s trs s') : CountersExact s' := by
  obtain ⟨hkept, hconst⟩ := reached_kept hs h
  have hsave : s'.dma.csiSaveUserCnt - s'.dma.csiSaveUserNodeHead.length =
      s.dma.csiSaveUserCnt - s.dma.csiSaveUserNodeHead.length :=
    congrArg (fun c => c.2.2) hconst
  have hsave₀ := (started_book hs).2.2
  have hsession := hkept.sessionCnt
  have hrssi := hkept.counted .rssi
  have hcsi := hkept.counted .csi
  have hconstell := hkept.counted .constell
  simp only [Service.Counted, Book.service, book, rssiService, csiService, constellService,
    List.length_map] at hsession hrssi hcsi hconstell
  exact ⟨hsession, hrssi, hcsi, by omega, hconstell⟩

/-- In every state reached the five counters are exact, and the CSI and the
constellation list hold the sessions that have the flag, each once. -/
theorem accounts_agree (hs : Started s) (h : Run Step s trs s') :
    CountersExact s' ∧
      ListsFlagged s'.dma.csiUserNodeHead RecordAction.enableStartCsi s'.server ∧
      ListsFlagged s'.dma.constellUserNodeHead RecordAction.enableStartConstell s'.server := by
  obtain ⟨hkept, -⟩ := reached_kept hs h
  have hcsi := listsFlagged_of_mirrors (hkept.mirrors .csi (by decide))
  have hconstell := listsFlagged_of_mirrors (hkept.mirrors .constell (by decide))
  exact ⟨countersExact_of_run hs h, hcsi, hconstell⟩

/-- Connections 7 and 8 connect, and 7 starts CSI. -/
theorem accounts_agree_one_csi_user :
    ∃ trs s, replay survive (startState ⟨"dev", "1"⟩ ⟨"dev", "0"⟩)
        [⟨.acceptNewUser 7, .success⟩, ⟨.acceptNewUser 8, .success⟩, ⟨.startCsi 7, .success⟩] =
          some (trs, s) ∧
      CountersExact s ∧
      ListsFlagged s.dma.csiUserNodeHead RecordAction.enableStartCsi s.server ∧
      ListsFlagged s.dma.constellUserNodeHead RecordAction.enableStartConstell s.server := by
  obtain ⟨trs, s, hs⟩ : ∃ trs s, replay survive (startState ⟨"dev", "1"⟩ ⟨"dev", "0"⟩)
      [⟨.acceptNewUser 7, .success⟩, ⟨.acceptNewUser 8, .success⟩, ⟨.startCsi 7, .success⟩] =
        some (trs, s) := ⟨_, _, rfl⟩
  exact ⟨trs, s, hs, accounts_agree (startState_started _ _) (run_of_replay step_of_survive hs)⟩

/-- No state reached has CSI users beside constellation users, nor sessions with
the two flags. -/
theorem csi_constellation_exclusive (hs : Started s) (h : Run Step s trs s') :
    ¬ (s'.dma.csiUserNodeHead ≠ [] ∧ s'.dma.constellUserNodeHead ≠ []) ∧
      ¬ ∃ m ∈ s'.server.userSessionNodeHead, ∃ n ∈ s'.server.userSessionNodeHead,
        m.recordAction.enableStartCsi = 1 ∧ n.recordAction.enableStartConstell = 1 := by
  obtain ⟨hkept, -⟩ := reached_kept hs h
  have hempty : s'.dma.csiUserNodeHead = [] ∨ s'.dma.constellUserNodeHead = [] := by
    simpa [book, csiService, constellService] using hkept.exclusive
  have hcsi : ListsFlagged s'.dma.csiUserNodeHead RecordAction.enableStartCsi s'.server :=
    listsFlagged_of_mirrors (hkept.mirrors .csi (by decide))
  have hconstell :
      ListsFlagged s'.dma.constellUserNodeHead RecordAction.enableStartConstell s'.server :=
    listsFlagged_of_mirrors (hkept.mirrors .constell (by decide))
  constructor
  · rintro ⟨hcsiUsers, hconstellUsers⟩
    rcases hempty with hnone | hnone
    · exact hcsiUsers hnone
    · exact hconstellUsers hnone
  · rintro ⟨m, hm, n, hn, hmflag, hnflag⟩
    have hmlisted := (hcsi.2 m.connfd).mpr ⟨m, hm, rfl, hmflag⟩
    have hnlisted := (hconstell.2 n.connfd).mpr ⟨n, hn, rfl, hnflag⟩
    rcases hempty with hnone | hnone
    · rw [hnone] at hmlisted
      cases hmlisted
    · rw [hnone] at hnlisted
      cases hnlisted

/-- Connection 8 asks for the constellation while 7 has CSI. -/
theorem csi_constellation_exclusive_two_users :
    ∃ trs s, replay survive (startState ⟨"dev", "1"⟩ ⟨"dev", "0"⟩)
        [⟨.acceptNewUser 7, .success⟩, ⟨.acceptNewUser 8, .success⟩, ⟨.startCsi 7, .success⟩,
          ⟨.startConstellation 8, .success⟩] = some (trs, s) ∧
      ¬ (s.dma.csiUserNodeHead ≠ [] ∧ s.dma.constellUserNodeHead ≠ []) ∧
      ¬ ∃ m ∈ s.server.userSessionNodeHead, ∃ n ∈ s.server.userSessionNodeHead,
        m.recordAction.enableStartCsi = 1 ∧ n.recordAction.enableStartConstell = 1 := by
  obtain ⟨trs, s, hs⟩ : ∃ trs s, replay survive (startState ⟨"dev", "1"⟩ ⟨"dev", "0"⟩)
      [⟨.acceptNewUser 7, .success⟩, ⟨.acceptNewUser 8, .success⟩, ⟨.startCsi 7, .success⟩,
        ⟨.startConstellation 8, .success⟩] = some (trs, s) := ⟨_, _, rfl⟩
  exact ⟨trs, s, hs, csi_constellation_exclusive (startState_started _ _)
    (run_of_replay step_of_survive hs)⟩

end Runs

end GwWeb.UserAccounting
