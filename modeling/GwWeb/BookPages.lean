import GwWeb.BookRuns
import GwWeb.DisplayPages

/-!
The user book follows the service to the pages: what each action does to the displays.
-/

namespace GwWeb.BookPages

open CountedService
open MirroredRoster
open GwWeb.DmaHandler
open GwWeb.UserBook
open GwWeb.BookRefinement
open GwWeb.BookRuns
open GwWeb.DisplayPages

/-- The users of the two displays are the pages that have them open. -/
structure Shows (b : Book) (p : Pages Int) : Prop where
  kept : b.Kept
  driven : b.csi.Driven
  csi : ∀ c, c ∈ p.csi ↔ c ∈ b.csi.users
  constell : ∀ c, c ∈ p.constell ↔ c ∈ b.constell.users
  running : p.running = true ↔ b.csi.state = 1

theorem shows_empty : Shows Book.empty Pages.closed where
  kept := kept_empty
  driven := Service.driven_idle
  csi := fun c => Iff.rfl
  constell := fun c => Iff.rfl
  running := by simp [Pages.closed, Book.empty, Service.idle]

variable {b : Book} {p : Pages Int} {connfd : Int} {e : Exchange} {r : StartReply}

theorem mem_add_users {v : Service Int} {c d : Int} :
    d ∈ (v.add c).users ↔ d = c ∨ d ∈ v.users := by
  rw [Service.add_users]
  split
  · rename_i hc
    exact ⟨.inr, fun hd => hd.elim (fun heq => heq ▸ hc) id⟩
  · simp [or_comm]

namespace Shows

theorem csi_flag (h : Shows b p) (c : Int) :
    c ∈ p.csi ↔ ∃ n ∈ b.sessions, n.connfd = c ∧ n.csi = 1 := by
  rw [h.csi]
  exact ((h.kept.mirrors .csi (by decide)).mem_iff c).trans mem_entries

theorem constell_flag (h : Shows b p) (c : Int) :
    c ∈ p.constell ↔ ∃ n ∈ b.sessions, n.connfd = c ∧ n.constell = 1 := by
  rw [h.constell]
  exact ((h.kept.mirrors .constell (by decide)).mem_iff c).trans mem_entries

theorem csi_eq_empty_iff (h : Shows b p) : p.csi = ∅ ↔ ¬ ∃ n ∈ b.sessions, n.csi = 1 := by
  simp only [Finset.eq_empty_iff_forall_notMem, h.csi_flag]
  constructor
  · rintro hnone ⟨n, hn, hflag⟩
    exact hnone n.connfd ⟨n, hn, rfl, hflag⟩
  · rintro hnone c ⟨n, hn, -, hflag⟩
    exact hnone ⟨n, hn, hflag⟩

theorem constell_eq_empty_iff (h : Shows b p) :
    p.constell = ∅ ↔ ¬ ∃ n ∈ b.sessions, n.constell = 1 := by
  simp only [Finset.eq_empty_iff_forall_notMem, h.constell_flag]
  constructor
  · rintro hnone ⟨n, hn, hflag⟩
    exact hnone n.connfd ⟨n, hn, rfl, hflag⟩
  · rintro hnone c ⟨n, hn, -, hflag⟩
    exact hnone ⟨n, hn, hflag⟩

theorem refuses_iff (h : Shows b p) :
    b.csi.Refuses (startExchange r) ↔ ¬ (p.running || decide (r.start = 0)) = true := by
  have hidle : b.csi.Idle ↔ ¬ p.running = true := by
    rw [h.running]
    constructor
    · rintro ⟨-, hzero⟩ hone
      rw [hzero] at hone
      cases hone
    · intro hone
      refine ⟨(h.kept.counted .csi).cnt_eq_zero_iff.mpr ?_, h.driven.binary.resolve_right hone⟩
      by_contra husers
      exact hone (h.driven.running husers)
  simp only [Service.Refuses, hidle, startExchange]
  simp

theorem act (h : Shows b p) {a : Action} {p' : Pages Int} (ha : a.Listed b)
    (hproper : ∀ q, a.request b .csi = some q → q.Proper)
    (hcsi : ∀ c, c ∈ p'.csi ↔ c ∈ (b.act a).csi.users)
    (hconstell : ∀ c, c ∈ p'.constell ↔ c ∈ (b.act a).constell.users)
    (hrunning : p'.running = true ↔ (b.act a).csi.state = 1) : Shows (b.act a) p' where
  kept := h.kept.act ha
  driven := driven_book_act (k := .csi) h.driven h.kept hproper
  csi := hcsi
  constell := hconstell
  running := hrunning

theorem enter (h : Shows b p) (connfd : Int) : Shows (b.act (.enter connfd)) p := by
  refine h.act (a := .enter connfd) trivial ?_ h.csi h.constell h.running
  intro q hq
  cases hq
  trivial

theorem openRssi (h : Shows b p) (hlisted : connfd ∈ b.sessions.map Session.connfd)
    (e : Exchange) : Shows (b.act (.openRssi connfd e)) p := by
  have hsame : (b.act (.openRssi connfd e)).csi = b.csi ∧
      (b.act (.openRssi connfd e)).constell = b.constell := by
    simp only [Book.act, Book.openRssi]
    split <;> exact ⟨rfl, rfl⟩
  refine h.act (a := .openRssi connfd e) hlisted ?_ ?_ ?_ ?_
  · intro q hq
    cases hq
  · rw [hsame.1]
    exact h.csi
  · rw [hsame.2]
    exact h.constell
  · rw [hsame.1]
    exact h.running

theorem startCsi (h : Shows b p) (hlisted : connfd ∈ b.sessions.map Session.connfd)
    (r : StartReply) :
    Shows (b.act (.startCsi connfd (startExchange r)))
      (p.startCsi connfd (decide (r.start = 0))) := by
  have hproper : ∀ q, Action.request b .csi (.startCsi connfd (startExchange r)) = some q →
      q.Proper := by
    intro q hq
    simp only [Action.request] at hq
    split at hq <;> cases hq
    exact ⟨rfl, fun _ => rfl⟩
  have hstate : (b.csi.wake (startExchange r)).state = 1 :=
    h.driven.wake_state (h.kept.counted .csi) fun _ => ⟨rfl, rfl⟩
  by_cases hfree : p.constell = ∅
  · have hnone := h.constell_eq_empty_iff.mp hfree
    have hcsi : (b.act (.startCsi connfd (startExchange r))).csi =
        if p.running || decide (r.start = 0) then (b.csi.wake (startExchange r)).add connfd
        else b.csi.wake (startExchange r) := by
      simp only [Book.act, Book.startCsi, if_neg hnone, h.refuses_iff]
      by_cases haccepted : (p.running || decide (r.start = 0)) = true
      · rw [if_neg (not_not.mpr haccepted), if_pos haccepted]
      · rw [if_pos haccepted, if_neg haccepted]
    have hconstell : (b.act (.startCsi connfd (startExchange r))).constell = b.constell := by
      simp only [Book.act, Book.startCsi]
      split
      · rfl
      · split <;> rfl
    simp only [Pages.startCsi, dif_pos hfree]
    refine h.act (a := .startCsi connfd (startExchange r)) hlisted hproper ?_ ?_ ?_
    · intro c
      rw [hcsi]
      show c ∈ (if p.running || decide (r.start = 0) then insert connfd p.csi else p.csi) ↔ _
      split
      · rw [mem_add_users, Service.wake_users, Finset.mem_insert, h.csi]
      · rw [Service.wake_users]
        exact h.csi c
    · rw [hconstell]
      exact h.constell
    · rw [hcsi]
      show true = true ↔ _
      split <;> simp [hstate]
  · have hsome := not_not.mp (mt h.constell_eq_empty_iff.mpr hfree)
    have hsame : b.act (.startCsi connfd (startExchange r)) = b := by
      simp only [Book.act, Book.startCsi, if_pos hsome]
    simp only [Pages.startCsi, dif_neg hfree]
    rw [hsame]
    exact h

theorem startConstell (h : Shows b p) (hlisted : connfd ∈ b.sessions.map Session.connfd)
    (e : Exchange) : Shows (b.act (.startConstell connfd e)) (p.startConstell connfd) := by
  have hproper : ∀ q, Action.request b .csi (.startConstell connfd e) = some q → q.Proper := by
    intro q hq
    cases hq
  by_cases hfree : p.csi = ∅
  · have hnone := h.csi_eq_empty_iff.mp hfree
    have hact : b.act (.startConstell connfd e) =
        { b with
          constell := (b.constell.wake e).add connfd
          sessions := setFlag connfd .constell 1 b.sessions } := by
      simp only [Book.act, Book.startConstell, if_neg hnone]
    simp only [Pages.startConstell, dif_pos hfree]
    refine h.act (a := .startConstell connfd e) hlisted hproper ?_ ?_ ?_
    · rw [hact]
      exact h.csi
    · intro c
      rw [hact, mem_add_users, Service.wake_users, ← h.constell]
      exact Finset.mem_insert
    · rw [hact]
      exact h.running
  · have hsome := not_not.mp (mt h.csi_eq_empty_iff.mpr hfree)
    have hsame : b.act (.startConstell connfd e) = b := by
      simp only [Book.act, Book.startConstell, if_pos hsome]
    simp only [Pages.startConstell, dif_neg hfree]
    rw [hsame]
    exact h

/-- The device stops with the last user, and not before. -/
theorem csi_removed (h : Shows b p) (connfd : Int) :
    (∀ c, c ∈ (p.closeCsi connfd).csi ↔ c ∈ (b.csi.remove connfd stopExchange).users) ∧
      ((p.closeCsi connfd).running = true ↔ (b.csi.remove connfd stopExchange).state = 1) := by
  have hcount := h.kept.counted .csi
  have hnodup : b.csi.users.Nodup := (h.kept.mirrors .csi (by decide)).nodup
  have hmem : ∀ c, c ∈ p.csi.erase connfd ↔ c ∈ (b.csi.remove connfd stopExchange).users := by
    intro c
    rw [Service.remove_users, hnodup.mem_erase_iff, Finset.mem_erase, h.csi]
  have hempty : p.csi.erase connfd = ∅ ↔ (b.csi.remove connfd stopExchange).users = [] := by
    simp only [Finset.eq_empty_iff_forall_notMem, List.eq_nil_iff_forall_not_mem, hmem]
  refine ⟨hmem, ?_⟩
  show (p.running && decide (p.csi.erase connfd ≠ ∅)) = true ↔ _
  by_cases hnone : p.csi.erase connfd = ∅
  · have hstate : (b.csi.remove connfd stopExchange).state = 0 :=
      h.driven.prompt_remove hcount connfd ⟨rfl, rfl⟩ (hempty.mp hnone)
    simp [hnone, hstate]
  · have hstate : (b.csi.remove connfd stopExchange).state = 1 :=
      (h.driven.remove hcount connfd (.inl rfl)).running (mt hempty.mpr hnone)
    have hrunning : p.running = true := by
      apply p.runs
      intro hcsi
      exact hnone (by rw [hcsi, Finset.erase_empty])
    simp [hnone, hstate, hrunning]

theorem constell_removed (h : Shows b p) (connfd : Int) :
    ∀ c, c ∈ p.constell.erase connfd ↔ c ∈ (b.constell.remove connfd stopExchange).users := by
  have hnodup : b.constell.users.Nodup := (h.kept.mirrors .constell (by decide)).nodup
  intro c
  rw [Service.remove_users, hnodup.mem_erase_iff, Finset.mem_erase, h.constell]

theorem stopCsi (h : Shows b p) (connfd : Int) :
    Shows (b.act (.stopCsi connfd stopExchange)) (p.closeCsi connfd) := by
  obtain ⟨hcsi, hrunning⟩ := h.csi_removed connfd
  refine h.act (a := .stopCsi connfd stopExchange) trivial ?_ hcsi h.constell hrunning
  intro q hq
  cases hq
  exact .inl rfl

theorem stopConstell (h : Shows b p) (connfd : Int) :
    Shows (b.act (.stopConstell connfd stopExchange)) (p.closeConstell connfd) := by
  refine h.act (a := .stopConstell connfd stopExchange) trivial ?_ h.csi
    (h.constell_removed connfd) h.running
  intro q hq
  cases hq

theorem leave_service (h : Shows b p) (connfd : Int) (e : Exchange) {k : Kind} (hk : k ≠ .rssi) :
    (b.act (.leave connfd e stopExchange stopExchange)).service k =
      if connfd ∈ (b.service k).users then (b.service k).remove connfd stopExchange
      else b.service k := by
  have hmirrors := h.kept.mirrors k hk
  have hon : isOn connfd (b.ledger k).entries = true ↔ connfd ∈ (b.service k).users :=
    (isOn_iff hmirrors.first connfd).trans (hmirrors.mem_iff connfd).symm
  have hledger := congrArg Subscription.Ledger.service
    (@ledger_leave b connfd h.kept.binary e stopExchange stopExchange k)
  simp only [Subscription.act, hon] at hledger
  cases k with
  | rssi => exact absurd rfl hk
  | csi => exact hledger
  | constell => exact hledger

/-- A session that goes undoes what its flags say, which is what its page has open. -/
theorem leave (h : Shows b p) (connfd : Int) (e : Exchange) :
    Shows (b.act (.leave connfd e stopExchange stopExchange)) (p.leave connfd) := by
  have hproper : ∀ q,
      Action.request b .csi (.leave connfd e stopExchange stopExchange) = some q → q.Proper := by
    intro q hq
    cases hq
    exact .inl rfl
  have hservice := h.leave_service connfd e (k := .csi) (by decide)
  have hservice' := h.leave_service connfd e (k := .constell) (by decide)
  simp only [Book.service, ← h.csi, ← h.constell] at hservice hservice'
  have hopen : (if connfd ∈ p.csi then p.closeCsi connfd else p).constell = p.constell := by
    split <;> rfl
  have hconstell : ∀ c, c ∈ p.constell.erase connfd ↔
      c ∈ (if connfd ∈ p.constell then b.constell.remove connfd stopExchange
        else b.constell).users := by
    intro c
    split
    · exact h.constell_removed connfd c
    · rename_i hnot
      rw [Finset.erase_eq_of_notMem hnot]
      exact h.constell c
  refine h.act (a := .leave connfd e stopExchange stopExchange) trivial hproper ?_ ?_ ?_
  · intro c
    rw [hservice]
    show c ∈ (if connfd ∈ p.csi then p.closeCsi connfd else p).csi ↔ _
    split
    · exact (h.csi_removed connfd).1 c
    · exact h.csi c
  · intro c
    rw [hservice', ← hconstell]
    show c ∈ (if connfd ∈ p.csi then p.closeCsi connfd else p).constell.erase connfd ↔ _
    rw [hopen]
  · rw [hservice]
    show (if connfd ∈ p.csi then p.closeCsi connfd else p).running = true ↔ _
    split
    · exact (h.csi_removed connfd).2
    · exact h.running

end Shows

end GwWeb.BookPages
