import GwWeb.EdgeTriggered
import Mathlib.Algebra.GroupWithZero.Nat
import Mathlib.Algebra.Order.BigOperators.Group.List
import Mathlib.Algebra.Order.Group.Nat

/-!
The thread of an edge-triggered event set, left to itself: it stops after a number of
steps known beforehand, and it does not stop before all that has arrived is read.
-/

namespace EdgeTriggered

open State
open TransitionRuns

variable {κ α β γ : Type*} [DecidableEq κ]

section Rest

variable (h : Handler α β γ)

/-- A step of the thread itself, while nobody connects. -/
def Quiet : Label κ α → Prop
  | .wait batch => ∀ item ∈ batch, ∃ k, item = .input k
  | .decline | .start | .recv _ | .leave | .finish => True
  | _ => False

/-- Nothing is left to do. -/
def AtRest (s : State κ α β γ) : Prop := s.thread = .wait ∧ s.ready = []

/-- What the thread has left to do with its batch. -/
def effort (s : State κ α β γ) : Thread κ → Nat
  | .wait | .stopped => 0
  | .serve batch => 3 * batch.length + 1
  | .read k batch =>
      3 * batch.length + if h.mode (s.socket k).handler = .reading then 3 else 2

/-- A bound on what the thread can do by itself. -/
def potential (s : State κ α β γ) : Nat :=
  5 * s.ready.length + effort h s s.thread +
    (s.registered.map fun k => (s.socket k).unread.length).sum

variable {h} {Holds : Accounts κ α β γ} {admissible fits : List α → Prop} {maxEvents : Nat}
  {s s' : State κ α β γ} {k : κ}

theorem unread_sum_lt {xs : List α} {g : γ} {out : List β} (hregistered : k ∈ s.registered)
    (hne : xs ≠ []) (hxs : xs <+: (s.socket k).unread) :
    (s.registered.map fun j => ((afterRecv k (.data xs hne) g out s).socket j).unread.length).sum <
      (s.registered.map fun j => (s.socket j).unread.length).sum := by
  have hpos : 0 < xs.length := List.length_pos_iff.mpr hne
  have hle := hxs.length_le
  have hself : ((afterRecv k (.data xs hne) g out s).socket k).unread.length =
      (s.socket k).unread.length - xs.length := by
    rw [afterRecv_self]
    exact List.length_drop
  apply List.sum_lt_sum
  · intro j _
    rcases eq_or_ne j k with rfl | hj
    · rw [hself]
      omega
    · simp [afterRecv, hj]
  · exact ⟨k, hregistered, by rw [hself]; omega⟩

omit [DecidableEq κ] in
theorem length_inputs {batch : List (Item κ)} (hbatch : ∀ item ∈ batch, ∃ k, item = .input k) :
    (inputs batch).length = batch.length := by
  induction batch with
  | nil => rfl
  | cons item batch ih =>
      obtain ⟨k, rfl⟩ := hbatch item List.mem_cons_self
      simpa using ih fun later hlater => hbatch later (List.mem_cons_of_mem _ hlater)

theorem potential_recv_lt (hsound : h.Sound Holds admissible fits)
    (hi : Inv h Holds admissible s) {batch : List (Item κ)} {input : Input α} {g : γ}
    {out : List β} (hthread : s.thread = .read k batch)
    (hreading : h.mode (s.socket k).handler = .reading) (hbrings : (s.socket k).Brings input)
    (htake : h.take (s.socket k).handler input g out) :
    potential h (afterRecv k input g out s) < potential h s := by
  obtain ⟨before, n, ha⟩ := hi.account k
  have hregistered := hi.hand k (by simp [hthread, inHand])
  have hafter : potential h (afterRecv k input g out s) = 5 * s.ready.length +
      (3 * batch.length + if h.mode g = .reading then 3 else 2) +
      (s.registered.map fun j => ((afterRecv k input g out s).socket j).unread.length).sum := by
    change 5 * s.ready.length + effort h (afterRecv k input g out s) s.thread + _ = _
    simp only [effort, hthread, afterRecv_self]
    rfl
  have hbefore : potential h s = 5 * s.ready.length + (3 * batch.length + 3) +
      (s.registered.map fun j => (s.socket j).unread.length).sum := by
    simp only [potential, effort, hthread, hreading, if_true]
  have hends : h.mode g ≠ .reading → input.items = [] →
      potential h (afterRecv k input g out s) < potential h s := by
    intro hmode hitems
    have hsum : ∀ j, ((afterRecv k input g out s).socket j).unread = (s.socket j).unread := by
      intro j
      rcases eq_or_ne j k with rfl | hj
      · simp [afterRecv_self, hitems]
      · simp [afterRecv, hj]
    rw [hafter, hbefore, if_neg hmode]
    simp only [hsum]
    omega
  cases input with
  | data xs hne =>
      have hsum := @unread_sum_lt _ _ _ _ _ _ _ _ g out hregistered hne hbrings
      rw [hafter, hbefore]
      split <;> omega
  | again =>
      have hmode := (hsound.again ha.holds htake).2.2
      exact hends (by simp [hmode]) rfl
  | closed =>
      have hmode := (hsound.ended (.inl rfl) ha.holds htake).2.2
      exact hends (by simp [hmode]) rfl
  | error =>
      have hmode := (hsound.ended (.inr rfl) ha.holds htake).2.2
      exact hends (by simp [hmode]) rfl

theorem potential_lt (hsound : h.Sound Holds admissible fits) (hi : Inv h Holds admissible s)
    {l : Label κ α} (hquiet : Quiet l) (hguard : Guard admissible fits s l)
    (hstep : Step h maxEvents s l s') : potential h s' < potential h s := by
  cases hstep with
  | arrive => exact absurd hquiet id
  | hangUp => exact absurd hquiet id
  | unregister => exact absurd hquiet id
  | waitFails => exact absurd hquiet id
  | enroll => exact absurd hquiet id
  | @wait batch n hthread hne hmax hbatch =>
      have hlength := length_inputs hquiet
      have hpos := List.length_pos_iff.mpr hne
      rw [hbatch, List.length_take] at hlength
      simp only [potential, effort, hthread, List.length_drop]
      omega
  | @decline e batch hthread =>
      simp only [potential, effort, hthread, List.length_cons]
      omega
  | @start k batch hthread =>
      obtain ⟨out, n, ha⟩ := hi.account k
      have hreading := (hsound.start ha.holds).2
      have hsum : ∀ j, (((({ s with thread := .read k batch } : State κ α β γ).set k
          { s.socket k with handler := h.start (s.socket k).handler }).socket j).unread) =
          (s.socket j).unread := by
        intro j
        rcases eq_or_ne j k with rfl | hj
        · simp
        · simp [hj]
      simp only [potential, hsum]
      simp only [effort, hthread, set_thread, set_socket_self, hreading, if_true, set_ready,
        set_registered, List.length_cons]
      omega
  | recv hthread hreading hbrings htake =>
      exact potential_recv_lt hsound hi hthread hreading hbrings htake
  | @leave k batch hthread hmode =>
      simp [potential, effort, hthread, hmode]
  | finish hthread =>
      simp [potential, effort, hthread]

/-- A step that the thread can take by itself. -/
def CanGoOn (h : Handler α β γ) (maxEvents : Nat) (admissible fits : List α → Prop)
    (s : State κ α β γ) : Prop :=
  ∃ l s', (Quiet l ∧ Guard admissible fits s l) ∧ Step h maxEvents s l s'

theorem canGoOn_reading (hsound : h.Sound Holds admissible fits)
    (hi : Inv h Holds admissible s) {batch : List (Item κ)} (hthread : s.thread = .read k batch)
    (hreading : h.mode (s.socket k).handler = .reading) :
    CanGoOn h maxEvents admissible fits s := by
  obtain ⟨out, n, ha⟩ := hi.account k
  cases hunread : (s.socket k).unread with
  | nil =>
      by_cases hhung : (s.socket k).hungUp = true
      · obtain ⟨g, out', htake⟩ := hsound.takes_closed (s.socket k).handler
        exact ⟨.recv .closed, _, ⟨trivial, trivial⟩,
          .recv hthread hreading ⟨hhung, hunread⟩ htake⟩
      · obtain ⟨g, out', htake⟩ := hsound.takes_again (s.socket k).handler
        exact ⟨.recv .again, _, ⟨trivial, trivial⟩,
          .recv hthread hreading ⟨hunread, by simpa using hhung⟩ htake⟩
  | cons x xs =>
      have harrived := hi.arrived k
      rw [Socket.arrived, hunread, List.append_cons] at harrived
      obtain ⟨g, out', htake⟩ := @Handler.Sound.takes_data _ _ _ _ _ _ _ _ hsound _ _ _ _ [x]
        (List.cons_ne_nil x []) ha.holds hreading (hsound.admissible_left harrived)
        (hsound.fits_one x)
      exact ⟨.recv (.data [x] (List.cons_ne_nil x [])), _, ⟨trivial, hsound.fits_one x⟩,
        .recv hthread hreading ⟨xs, by simp [hunread]⟩ htake⟩

theorem canGoOn_of_not_atRest (hmax : 0 < maxEvents) (hsound : h.Sound Holds admissible fits)
    (hi : Inv h Holds admissible s) (hrest : ¬ AtRest s) :
    CanGoOn h maxEvents admissible fits s := by
  cases hthread : s.thread with
  | wait =>
      cases hready : s.ready with
      | nil => exact absurd ⟨hthread, hready⟩ hrest
      | cons k ready =>
          have hbatch : ∀ item ∈ [Item.input k], ∃ j, item = .input j := by simp
          exact ⟨.wait [.input k], _, ⟨hbatch, trivial⟩,
            .wait (n := 1) hthread (by simp) hmax (by simp [hready])⟩
  | stopped => exact absurd hthread hi.running
  | serve batch =>
      cases batch with
      | nil => exact ⟨.finish, _, ⟨trivial, trivial⟩, .finish hthread⟩
      | cons item batch =>
          cases item with
          | opener e => exact ⟨.decline, _, ⟨trivial, trivial⟩, .decline hthread⟩
          | input k => exact ⟨.start, _, ⟨trivial, trivial⟩, .start hthread⟩
  | read k batch =>
      by_cases hreading : h.mode (s.socket k).handler = .reading
      · exact canGoOn_reading hsound hi hthread hreading
      · exact ⟨.leave, _, ⟨trivial, trivial⟩, .leave hthread hreading⟩

/-- Left to itself, the thread stops after no more steps than the potential. -/
theorem quiet_run_length {trs : List (Transition (State κ α β γ) (Label κ α))}
    (hsound : h.Sound Holds admissible fits) (hi : Inv h Holds admissible s)
    (hrun : Run (Step h maxEvents) s trs s')
    (hquiet : ∀ tr ∈ trs, Quiet tr.label ∧ Guard admissible fits tr.before tr.label) :
    trs.length + potential h s' ≤ potential h s := by
  induction hrun with
  | nil => simp
  | @cons a b c l trs hstep _ ih =>
      obtain ⟨hl, hg⟩ := hquiet ⟨a, l, b⟩ (by simp)
      have hlt := potential_lt hsound hi hl hg hstep
      have hlater := ih (hi.step hsound hg hstep) fun tr htr => hquiet tr (by simp [htr])
      rw [List.length_cons]
      omega

/-- All that has arrived at a socket is read, and its end is posted just if it has one. -/
theorem Inv.at_rest (hi : Inv h Holds admissible s) (hrest : AtRest s)
    (hk : k ∈ s.registered) :
    ∃ out n, s.postsOf k =
        (s.socket k).entry.elim [] h.opening ++ out ++ List.replicate n h.closing ∧
      Holds k (s.socket k).handler (s.socket k).arrived out ∧
      (s.socket k).unread = [] ∧ (0 < n ↔ (s.socket k).hungUp = true) := by
  obtain ⟨out, n, ha⟩ := hi.account k
  have hposted : (s.socket k).HasInput → 0 < n := by
    intro hinput
    have hawake := ha.awake hk hinput
    simpa [hrest.2, Attended, Shutting, hrest.1] using hawake
  have hread : (s.socket k).unread = [] := by
    by_contra hunread
    exact hunread (ha.ended (.inl (hposted (.inl hunread)))).2
  refine ⟨out, n, ha.posts, ?_, hread, ?_⟩
  · rw [Socket.arrived, hread, List.append_nil]
    exact ha.holds
  · constructor
    · exact fun hn => (ha.ended (.inl hn)).1
    · exact fun hhung => hposted (.inr hhung)

end Rest

end EdgeTriggered
