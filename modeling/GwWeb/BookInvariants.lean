import GwWeb.Subscription
import GwWeb.UserBook

/-!
What every sequence of book actions keeps. For each service the book holds a
ledger: the sessions with their flag for it, and the service.
-/

namespace GwWeb.UserBook

open CountedService
open FirstMatch
open MirroredRoster
open Relation
open Subscription

/-- The sessions, with whether they have the flag set. -/
def entries (k : Kind) (sessions : List Session) : Entries Int :=
  sessions.map fun n => (n.connfd, decide (n.flag k = 1))

/-- A service of the book with the flags of the sessions for it. -/
def Book.ledger (k : Kind) (b : Book) : Ledger Int :=
  { entries := entries k b.sessions, service := b.service k }

/-- What an action asks of one of the services, if anything. -/
def Action.request (b : Book) : Kind → Action → Option (Request Int)
  | _, .enter connfd => some (.enter connfd)
  | .rssi, .leave connfd e _ _ => some (.leave connfd e)
  | .csi, .leave connfd _ e _ => some (.leave connfd e)
  | .constell, .leave connfd _ _ e => some (.leave connfd e)
  | .rssi, .openRssi connfd e => some (.startAgain connfd e)
  | .csi, .startCsi connfd e =>
      if ∃ n ∈ b.sessions, n.constell = 1 then none else some (.start connfd e)
  | .csi, .stopCsi connfd e => some (.stop connfd e)
  | .constell, .startConstell connfd e =>
      if ∃ n ∈ b.sessions, n.csi = 1 then none else some (.startAnyway connfd e)
  | .constell, .stopConstell connfd e => some (.stop connfd e)
  | _, _ => none

def Book.Binary (b : Book) : Prop := ∀ n ∈ b.sessions, ∀ k, n.flag k = 0 ∨ n.flag k = 1

section Entries

variable {connfd : Int} {k : Kind}

theorem keys_entries (k : Kind) (sessions : List Session) :
    (entries k sessions).map Prod.fst = sessions.map Session.connfd := by
  simp [entries, Function.comp_def]

theorem mem_entries {c : Int} {sessions : List Session} :
    (c, true) ∈ entries k sessions ↔ ∃ n ∈ sessions, n.connfd = c ∧ n.flag k = 1 := by
  simp [entries]

theorem entries_setFlag (connfd : Int) (j k : Kind) (x : Int) (sessions : List Session) :
    entries k (setFlag connfd j x sessions) =
      if j = k then switch connfd (x = 1) (entries k sessions) else entries k sessions := by
  unfold entries setFlag switch
  split
  · rename_i hjk
    subst hjk
    apply map_updateFirst_comm
    · intro n
      rfl
    · intro n _
      cases j <;> rfl
  · rename_i hjk
    apply map_updateFirst
    intro n _
    cases j <;> cases k <;> first | rfl | exact absurd rfl hjk

theorem entries_eraseP (sessions : List Session) :
    entries k (sessions.eraseP fun n => n.connfd = connfd) =
      (entries k sessions).eraseP fun x => x.1 = connfd := by
  unfold entries
  rw [List.eraseP_map]
  rfl

theorem isOn_entries (sessions : List Session) :
    isOn connfd (entries k sessions) =
      (sessions.find? fun n => n.connfd = connfd).any fun n => n.flag k = 1 := by
  unfold isOn entries
  rw [List.find?_map, Option.any_map]
  rfl

end Entries

section Ledgers

variable {b : Book} {connfd : Int} {e : Exchange}

theorem ledger_enter (k : Kind) :
    (b.act (.enter connfd)).ledger k = act (.enter connfd) (b.ledger k) := by
  cases k <;> simp [Book.ledger, Book.act, Book.service, act, entries, Session.flag]

theorem ledger_leave (hb : b.Binary) (rssi csi constell : Exchange) (k : Kind) :
    (b.leave connfd rssi csi constell).ledger k =
      act (.leave connfd (match k with | .rssi => rssi | .csi => csi | .constell => constell))
        (b.ledger k) := by
  simp only [act, Book.ledger, isOn_entries, ← entries_eraseP, Book.leave]
  split
  · rename_i hnone
    have hsame : (b.sessions.eraseP fun n => n.connfd = connfd) = b.sessions := by
      apply eraseP_of_not_any
      simpa using hnone
    simp [hnone, hsame]
  · rename_i n hn
    have hflag : (n.flag k ≠ 0) = (n.flag k = 1) := by
      rcases hb n (List.mem_of_find?_eq_some hn) k with hzero | hone
      · simp [hzero]
      · simp [hone]
    simp only [hn, Option.any_some, decide_eq_true_eq, ← hflag]
    cases k <;> rfl

theorem ledger_openRssi (k : Kind) :
    (b.openRssi connfd e).ledger k =
      if k = .rssi then act (.startAgain connfd e) (b.ledger k) else b.ledger k := by
  simp only [Book.openRssi, Book.ledger]
  cases k
  · simp only [act, Book.service, if_true]
    split
    · rename_i hrefused
      simp [hrefused]
    · rename_i haccepted
      simp [haccepted, entries_setFlag]
  · split <;> simp [entries_setFlag, Book.service]
  · split <;> simp [entries_setFlag, Book.service]

theorem ledger_startCsi (hfree : ¬ ∃ n ∈ b.sessions, n.constell = 1) (k : Kind) :
    (b.startCsi connfd e).ledger k =
      if k = .csi then act (.start connfd e) (b.ledger k) else b.ledger k := by
  simp only [Book.startCsi, Book.ledger, hfree, if_false]
  cases k
  · split <;> simp [entries_setFlag, Book.service]
  · simp only [act, Book.service, if_true]
    split
    · rename_i hrefused
      simp [hrefused]
    · rename_i haccepted
      simp [haccepted, entries_setFlag]
  · split <;> simp [entries_setFlag, Book.service]

theorem ledger_stopCsi (k : Kind) :
    (b.stopCsi connfd e).ledger k =
      if k = .csi then act (.stop connfd e) (b.ledger k) else b.ledger k := by
  cases k <;> simp [Book.stopCsi, Book.ledger, act, entries_setFlag, Book.service]

theorem ledger_startConstell (hfree : ¬ ∃ n ∈ b.sessions, n.csi = 1) (k : Kind) :
    (b.startConstell connfd e).ledger k =
      if k = .constell then act (.startAnyway connfd e) (b.ledger k) else b.ledger k := by
  simp only [Book.startConstell, Book.ledger, hfree, if_false]
  cases k <;> simp [act, entries_setFlag, Book.service]

theorem ledger_stopConstell (k : Kind) :
    (b.stopConstell connfd e).ledger k =
      if k = .constell then act (.stop connfd e) (b.ledger k) else b.ledger k := by
  cases k <;> simp [Book.stopConstell, Book.ledger, act, entries_setFlag, Book.service]

end Ledgers

theorem ledger_act {b : Book} (hb : b.Binary) (a : Action) (k : Kind) :
    (b.act a).ledger k = ((a.request b k).map fun r => act r (b.ledger k)).getD (b.ledger k) := by
  cases a with
  | enter connfd => cases k <;> exact ledger_enter _
  | leave connfd rssi csi constell =>
      rw [Book.act, ledger_leave hb]
      cases k <;> rfl
  | openRssi connfd e =>
      rw [Book.act, ledger_openRssi]
      cases k <;> rfl
  | startCsi connfd e =>
      rcases Classical.em (∃ n ∈ b.sessions, n.constell = 1) with hbusy | hfree
      · have hsame : b.act (.startCsi connfd e) = b := by
          simp only [Book.act, Book.startCsi, hbusy, if_true]
        rw [hsame]
        cases k <;> simp [Action.request, hbusy]
      · rw [Book.act, ledger_startCsi hfree]
        cases k <;> simp [Action.request, hfree]
  | stopCsi connfd e =>
      rw [Book.act, ledger_stopCsi]
      cases k <;> rfl
  | startConstell connfd e =>
      rcases Classical.em (∃ n ∈ b.sessions, n.csi = 1) with hbusy | hfree
      · have hsame : b.act (.startConstell connfd e) = b := by
          simp only [Book.act, Book.startConstell, hbusy, if_true]
        rw [hsame]
        cases k <;> simp [Action.request, hbusy]
      · rw [Book.act, ledger_startConstell hfree]
        cases k <;> simp [Action.request, hfree]
  | stopConstell connfd e =>
      rw [Book.act, ledger_stopConstell]
      cases k <;> rfl

/-- A session that starts a service is in the list. -/
def Action.Listed (b : Book) : Action → Prop
  | .openRssi connfd _ => connfd ∈ b.sessions.map Session.connfd
  | .startCsi connfd _ => connfd ∈ b.sessions.map Session.connfd
  | .startConstell connfd _ => connfd ∈ b.sessions.map Session.connfd
  | _ => True

theorem request_listed {b : Book} {a : Action} {k : Kind} {r : Request Int}
    (ha : a.Listed b) (hr : a.request b k = some r) : r.Listed (b.ledger k) := by
  have hkeys : (b.ledger k).entries.map Prod.fst = b.sessions.map Session.connfd :=
    keys_entries k b.sessions
  cases a with
  | enter connfd => cases k <;> cases hr <;> trivial
  | leave connfd rssi csi constell => cases k <;> cases hr <;> trivial
  | openRssi connfd e =>
      have hc : connfd ∈ (b.ledger k).entries.map Prod.fst := hkeys ▸ ha
      cases k <;> cases hr
      exact hc
  | startCsi connfd e =>
      have hc : connfd ∈ (b.ledger k).entries.map Prod.fst := hkeys ▸ ha
      cases k with
      | csi =>
          simp only [Action.request] at hr
          split at hr <;> cases hr
          exact hc
      | rssi => cases hr
      | constell => cases hr
  | stopCsi connfd e =>
      cases k <;> cases hr
      trivial
  | startConstell connfd e =>
      have hc : connfd ∈ (b.ledger k).entries.map Prod.fst := hkeys ▸ ha
      cases k with
      | constell =>
          simp only [Action.request] at hr
          split at hr <;> cases hr
          exact hc
      | rssi => cases hr
      | csi => cases hr
  | stopConstell connfd e =>
      cases k <;> cases hr
      trivial

/-- What every book keeps: exact counters, binary flags, ledgers whose users cover
or mirror the flags, and no CSI user beside a constellation user. -/
structure Book.Kept (b : Book) : Prop where
  sessionCnt : b.sessionCnt = b.sessions.length
  binary : b.Binary
  counted : ∀ k, (b.service k).Counted
  covers : ∀ k, Covers (roster (b.ledger k))
  mirrors : ∀ k, k ≠ .rssi → Mirrors (roster (b.ledger k))
  exclusive : b.csi.users = [] ∨ b.constell.users = []

theorem kept_empty : Book.empty.Kept where
  sessionCnt := rfl
  binary := by simp [Book.Binary, Book.empty]
  counted := by intro k; cases k <;> exact Service.counted_idle
  covers := by intro k; cases k <;> exact mirrors_empty.covers
  mirrors := by intro k _; cases k <;> exact mirrors_empty
  exclusive := .inl rfl

section Kept

variable {b : Book} {a : Action}

theorem sessionCnt_act (h : b.sessionCnt = b.sessions.length) (a : Action) :
    (b.act a).sessionCnt = (b.act a).sessions.length := by
  have hset : ∀ connfd k x, (setFlag connfd k x b.sessions).length = b.sessions.length :=
    fun connfd k x => length_updateFirst _ _ _
  cases a with
  | enter connfd => simp [Book.act, h]
  | leave connfd rssi csi constell =>
      simp only [Book.act, Book.leave]
      split
      · exact h
      · rename_i n hn
        have hany : (b.sessions.any fun n => n.connfd = connfd) = true := by
          rw [List.any_eq_true]
          exact ⟨n, List.mem_of_find?_eq_some hn, by simpa using List.find?_some hn⟩
        have hlength := length_eraseP_add hany
        simp only [h]
        omega
  | openRssi connfd e =>
      simp only [Book.act, Book.openRssi]
      split
      · exact h
      · simp [hset, h]
  | startCsi connfd e =>
      simp only [Book.act, Book.startCsi]
      split
      · exact h
      · split
        · exact h
        · simp [hset, h]
  | stopCsi connfd e => simp [Book.act, Book.stopCsi, hset, h]
  | startConstell connfd e =>
      simp only [Book.act, Book.startConstell]
      split
      · exact h
      · simp [hset, h]
  | stopConstell connfd e => simp [Book.act, Book.stopConstell, hset, h]

theorem binary_setFlag {connfd x : Int} {sessions : List Session} {j : Kind}
    (h : ∀ n ∈ sessions, ∀ k, n.flag k = 0 ∨ n.flag k = 1) (hx : x = 0 ∨ x = 1) :
    ∀ n ∈ setFlag connfd j x sessions, ∀ k, n.flag k = 0 ∨ n.flag k = 1 := by
  intro n hn k
  rcases mem_updateFirst hn with hold | ⟨m, hm, -, rfl⟩
  · exact h n hold k
  · have hm := h m hm k
    cases j <;> cases k <;> first | exact hx | exact hm

theorem Book.Binary.act (h : b.Binary) (a : Action) : (b.act a).Binary := by
  cases a with
  | enter connfd =>
      intro n hn k
      rcases List.mem_append.mp hn with hold | hnew
      · exact h n hold k
      · rw [List.mem_singleton.mp hnew]
        cases k <;> exact .inl rfl
  | leave connfd rssi csi constell =>
      intro n hn k
      simp only [Book.act, Book.leave] at hn
      split at hn
      · exact h n hn k
      · exact h n (List.mem_of_mem_eraseP hn) k
  | openRssi connfd e =>
      simp only [Book.act, Book.openRssi]
      split
      · exact h
      · exact binary_setFlag h (.inr rfl)
  | startCsi connfd e =>
      simp only [Book.act, Book.startCsi]
      split
      · exact h
      · split
        · exact h
        · exact binary_setFlag h (.inr rfl)
  | stopCsi connfd e => exact binary_setFlag h (.inl rfl)
  | startConstell connfd e =>
      simp only [Book.act, Book.startConstell]
      split
      · exact h
      · exact binary_setFlag h (.inr rfl)
  | stopConstell connfd e => exact binary_setFlag h (.inl rfl)

theorem users_eq_nil_iff {k : Kind} (h : Mirrors (roster (b.ledger k))) :
    (b.service k).users = [] ↔ ¬ ∃ n ∈ b.sessions, n.flag k = 1 := by
  have hmem : ∀ c, c ∈ (b.service k).users ↔ (c, true) ∈ entries k b.sessions := h.mem_iff
  simp only [List.eq_nil_iff_forall_not_mem, hmem, mem_entries]
  constructor
  · rintro hnone ⟨n, hn, hflag⟩
    exact hnone n.connfd ⟨n, hn, rfl, hflag⟩
  · rintro hnone c ⟨n, hn, -, hflag⟩
    exact hnone ⟨n, hn, hflag⟩

theorem exclusive_act (h : b.Kept) (a : Action) :
    (b.act a).csi.users = [] ∨ (b.act a).constell.users = [] := by
  have hcsi : b.csi.users = [] ↔ ¬ ∃ n ∈ b.sessions, n.csi = 1 :=
    users_eq_nil_iff (h.mirrors .csi (by decide))
  have hconstell : b.constell.users = [] ↔ ¬ ∃ n ∈ b.sessions, n.constell = 1 :=
    users_eq_nil_iff (h.mirrors .constell (by decide))
  have hexclusive := h.exclusive
  cases a with
  | enter connfd => exact hexclusive
  | leave connfd rssi csi constell =>
      simp only [Book.act, Book.leave]
      split
      · exact hexclusive
      · apply hexclusive.imp
        · intro hnone
          dsimp only
          split <;> simp [hnone]
        · intro hnone
          dsimp only
          split <;> simp [hnone]
  | openRssi connfd e =>
      simp only [Book.act, Book.openRssi]
      split <;> exact hexclusive
  | startCsi connfd e =>
      simp only [Book.act, Book.startCsi]
      split
      · exact hexclusive
      · rename_i hfree
        apply Or.inr
        split <;> exact hconstell.mpr hfree
  | stopCsi connfd e =>
      apply hexclusive.imp_left
      intro hnone
      simp [Book.act, Book.stopCsi, hnone]
  | startConstell connfd e =>
      simp only [Book.act, Book.startConstell]
      split
      · exact hexclusive
      · rename_i hfree
        exact .inl (hcsi.mpr hfree)
  | stopConstell connfd e =>
      apply hexclusive.imp_right
      intro hnone
      simp [Book.act, Book.stopConstell, hnone]

theorem Book.Kept.act (h : b.Kept) (ha : a.Listed b) : (b.act a).Kept where
  sessionCnt := sessionCnt_act h.sessionCnt a
  binary := h.binary.act a
  counted := by
    intro k
    change ((b.act a).ledger k).service.Counted
    rw [ledger_act h.binary]
    cases a.request b k with
    | none => exact h.counted k
    | some r => exact counted_act (h.counted k) r
  covers := by
    intro k
    rw [ledger_act h.binary]
    cases hr : a.request b k with
    | none => exact h.covers k
    | some r => exact covers_act (h.covers k) (request_listed ha hr)
  mirrors := by
    intro k hk
    rw [ledger_act h.binary]
    cases hr : a.request b k with
    | none => exact h.mirrors k hk
    | some r =>
        apply mirrors_act (h.mirrors k hk) (request_listed ha hr)
        rintro c e rfl
        cases a <;> cases k <;> simp [Action.request] at hr hk
  exclusive := exclusive_act h a

end Kept

theorem driven_book_act {b : Book} {a : Action} {k : Kind} (h : (b.service k).Driven)
    (hkept : b.Kept) (hproper : ∀ r, a.request b k = some r → r.Proper) :
    ((b.act a).service k).Driven := by
  change ((b.act a).ledger k).service.Driven
  rw [ledger_act hkept.binary]
  cases hr : a.request b k with
  | none => exact h
  | some r => exact driven_act h (hkept.counted k) (hproper r hr)

theorem prompt_book_act {b : Book} {a : Action} {k : Kind} (h : (b.service k).Prompt)
    (hkept : b.Kept) (hdriven : (b.service k).Driven)
    (hprompts : ∀ r, a.request b k = some r → r.Prompts (b.ledger k)) :
    ((b.act a).service k).Prompt := by
  change ((b.act a).ledger k).service.Prompt
  rw [ledger_act hkept.binary]
  cases hr : a.request b k with
  | none => exact h
  | some r => exact prompt_act h (hkept.counted k) hdriven (hprompts r hr)

theorem confirmed_book_act {b : Book} {a : Action} {k : Kind} (h : (b.service k).Confirmed)
    (hkept : b.Kept) (hproper : ∀ r, a.request b k = some r → r.Proper)
    (hheeded : ∀ r, a.request b k = some r → r.Heeded (b.ledger k)) :
    ((b.act a).service k).Confirmed := by
  change ((b.act a).ledger k).service.Confirmed
  rw [ledger_act hkept.binary]
  cases hr : a.request b k with
  | none => exact h
  | some r => exact confirmed_act h (hkept.counted k) (hproper r hr) (hheeded r hr)

/-- An action of a listed session. -/
def BookStep (b b' : Book) : Prop := ∃ a : Action, a.Listed b ∧ b' = b.act a

theorem kept_of_bookSteps {b : Book} (h : ReflTransGen BookStep Book.empty b) : b.Kept := by
  induction h with
  | refl => exact kept_empty
  | tail _ hlast ih =>
      obtain ⟨a, ha, rfl⟩ := hlast
      exact ih.act ha

end GwWeb.UserBook
