import GwWeb.TransitionRuns
import Mathlib.Logic.Function.Basic

/-!
One thread that serves an edge-triggered event set: a socket comes to the ready list
when something new arrives at it, and whoever takes it from there has to read it until
nothing is left. The code that reads a socket is a parameter.
-/

namespace EdgeTriggered

open TransitionRuns

/-- What one read of a socket brings. -/
inductive Input (α : Type*) where
  | data (xs : List α) (nonempty : xs ≠ [])
  | again
  | closed
  | error

/-- Whether a handler reads, leaves its readiness alone, or has ended. -/
inductive Mode where
  | reading
  | idle
  | shut
  deriving DecidableEq

/-- How a socket comes to the set: accepted by the thread itself, or handed over. -/
inductive Entry where
  | accepted
  | handedOver
  deriving DecidableEq

/-- Code that reads one socket in a loop. Its steps are a relation, since a step may
never end. -/
structure Handler (α β γ : Type*) where
  start : γ → γ
  mode : γ → Mode
  take : γ → Input α → γ → List β → Prop
  opening : Entry → List β
  closing : β

/-- A connection; what has arrived at it is `taken ++ unread`. -/
structure Socket (α γ : Type*) where
  handler : γ
  entry : Option Entry
  taken : List α
  unread : List α
  hungUp : Bool

/-- A readiness in a batch: of an opener, or of a socket. -/
inductive Item (κ : Type*) where
  | opener (e : Entry)
  | input (k : κ)

/-- The thread waits, goes through a batch, reads a socket, or has left its loop. -/
inductive Thread (κ : Type*) where
  | wait
  | serve (batch : List (Item κ))
  | read (k : κ) (batch : List (Item κ))
  | stopped

/-- The sockets, the set of the thread and what it has posted. -/
structure State (κ α β γ : Type*) where
  socket : κ → Socket α γ
  registered : List κ
  ready : List κ
  thread : Thread κ
  posted : List (κ × β)

/-- News at a socket, or a step of the thread. -/
inductive Label (κ α : Type*) where
  | arrive (k : κ) (xs : List α)
  | hangUp (k : κ)
  | unregister (k : κ)
  | wait (batch : List (Item κ))
  | waitFails
  | enroll (k : κ)
  | decline
  | start
  | recv (input : Input α)
  | leave
  | finish

variable {κ α β γ : Type*}

/-- The data of an input. -/
def Input.items : Input α → List α
  | .data xs _ => xs
  | .again | .closed | .error => []

namespace Socket

/-- All data of a socket, read or not. -/
def arrived (x : Socket α γ) : List α := x.taken ++ x.unread

/-- A read would not block. -/
def HasInput (x : Socket α γ) : Prop := x.unread ≠ [] ∨ x.hungUp = true

/-- The peer has hung up, and all that it sent is read. -/
def Ended (x : Socket α γ) : Prop := x.hungUp = true ∧ x.unread = []

/-- What a read can bring. The end of the stream, or the error that ended it, comes
behind the data. -/
def Brings (x : Socket α γ) : Input α → Prop
  | .data xs _ => xs <+: x.unread
  | .again => x.unread = [] ∧ x.hungUp = false
  | .closed | .error => x.Ended

instance (x : Socket α γ) : Decidable x.HasInput :=
  decidable_of_iff (x.unread.isEmpty = false ∨ x.hungUp = true) (by simp [HasInput])

end Socket

/-- The sockets of a batch. -/
def inputs (batch : List (Item κ)) : List κ :=
  batch.filterMap fun
    | .opener _ => none
    | .input k => some k

/-- The sockets that the thread has taken from the ready list. -/
def inHand : Thread κ → List κ
  | .wait | .stopped => []
  | .serve batch => inputs batch
  | .read k batch => k :: inputs batch

@[simp] theorem inputs_nil : inputs ([] : List (Item κ)) = [] := rfl

@[simp] theorem inputs_opener (e : Entry) (batch : List (Item κ)) :
    inputs (.opener e :: batch) = inputs batch := rfl

@[simp] theorem inputs_input (k : κ) (batch : List (Item κ)) :
    inputs (.input k :: batch) = k :: inputs batch := rfl

namespace State

/-- The outputs of a handler, behind those that were posted before. -/
def post (k : κ) (out : List β) (s : State κ α β γ) : State κ α β γ :=
  { s with posted := s.posted ++ out.map (k, ·) }

section Post

variable {s : State κ α β γ} {k : κ} {out : List β}

@[simp] theorem post_socket : (s.post k out).socket = s.socket := rfl

@[simp] theorem post_registered : (s.post k out).registered = s.registered := rfl

@[simp] theorem post_ready : (s.post k out).ready = s.ready := rfl

@[simp] theorem post_thread : (s.post k out).thread = s.thread := rfl

end Post

variable [DecidableEq κ]

def set (k : κ) (x : Socket α γ) (s : State κ α β γ) : State κ α β γ :=
  { s with socket := Function.update s.socket k x }

/-- Something new at a socket brings it to the end of the ready list. -/
def notify (k : κ) (s : State κ α β γ) : State κ α β γ :=
  if k ∈ s.registered ∧ k ∉ s.ready then { s with ready := s.ready ++ [k] } else s

def unregister (k : κ) (s : State κ α β γ) : State κ α β γ :=
  { s with
    registered := s.registered.filter (· ≠ k)
    ready := s.ready.filter (· ≠ k) }

/-- A socket at which something has arrived already is ready from the start. -/
def enroll (h : Handler α β γ) (k : κ) (e : Entry) (s : State κ α β γ) : State κ α β γ :=
  ({ s with
      registered := s.registered ++ [k]
      ready := if (s.socket k).HasInput then s.ready ++ [k] else s.ready }
    |>.set k { s.socket k with entry := some e }).post k (h.opening e)

/-- What has been posted about a socket, in order. -/
def postsOf (k : κ) (s : State κ α β γ) : List β :=
  (s.posted.filter fun p => p.1 = k).map Prod.snd

end State

variable [DecidableEq κ]

open State

section Steps

variable (h : Handler α β γ) (maxEvents : Nat)

/-- The code between two reads, with the state and the input that the last one left. -/
def afterRecv (k : κ) (input : Input α) (g : γ) (out : List β) (s : State κ α β γ) :
    State κ α β γ :=
  (s.set k { s.socket k with
      handler := g
      taken := (s.socket k).taken ++ input.items
      unread := (s.socket k).unread.drop input.items.length }).post k out

/-- What the network and the thread may do. -/
inductive Step : State κ α β γ → Label κ α → State κ α β γ → Prop where
  | arrive {s : State κ α β γ} {k : κ} {xs : List α} :
      (s.socket k).hungUp = false →
      Step s (.arrive k xs)
        ((s.set k { s.socket k with unread := (s.socket k).unread ++ xs }).notify k)
  | hangUp {s : State κ α β γ} {k : κ} :
      Step s (.hangUp k) ((s.set k { s.socket k with hungUp := true }).notify k)
  | unregister {s : State κ α β γ} {k : κ} : Step s (.unregister k) (s.unregister k)
  | wait {s : State κ α β γ} {batch : List (Item κ)} {n : Nat} :
      s.thread = .wait → batch ≠ [] → batch.length ≤ maxEvents →
      inputs batch = s.ready.take n →
      Step s (.wait batch) { s with ready := s.ready.drop n, thread := .serve batch }
  | waitFails {s : State κ α β γ} :
      s.thread = .wait → Step s .waitFails { s with thread := .stopped }
  | enroll {s : State κ α β γ} {k : κ} {e : Entry} {batch : List (Item κ)} :
      s.thread = .serve (.opener e :: batch) → (s.socket k).entry = none →
      Step s (.enroll k) (({ s with thread := .serve batch } : State κ α β γ).enroll h k e)
  | decline {s : State κ α β γ} {e : Entry} {batch : List (Item κ)} :
      s.thread = .serve (.opener e :: batch) →
      Step s .decline { s with thread := .serve batch }
  | start {s : State κ α β γ} {k : κ} {batch : List (Item κ)} :
      s.thread = .serve (.input k :: batch) →
      Step s .start
        (({ s with thread := .read k batch } : State κ α β γ).set k
          { s.socket k with handler := h.start (s.socket k).handler })
  | recv {s : State κ α β γ} {k : κ} {batch : List (Item κ)} {input : Input α} {g : γ}
      {out : List β} :
      s.thread = .read k batch → h.mode (s.socket k).handler = .reading →
      (s.socket k).Brings input → h.take (s.socket k).handler input g out →
      Step s (.recv input) (afterRecv k input g out s)
  | leave {s : State κ α β γ} {k : κ} {batch : List (Item κ)} :
      s.thread = .read k batch → h.mode (s.socket k).handler ≠ .reading →
      Step s .leave
        (({ s with thread := .serve batch } : State κ α β γ).post k
          (if h.mode (s.socket k).handler = .shut then [h.closing] else []))
  | finish {s : State κ α β γ} :
      s.thread = .serve [] → Step s .finish { s with thread := .wait }

end Steps

section Frame

variable {s : State κ α β γ} {k j : κ} {x : Socket α γ} {out : List β}

@[simp] theorem set_socket_self : (s.set k x).socket k = x := by simp [State.set]

@[simp] theorem set_socket_of_ne (hne : j ≠ k) : (s.set k x).socket j = s.socket j := by
  simp [State.set, hne]

@[simp] theorem set_registered : (s.set k x).registered = s.registered := rfl

@[simp] theorem set_ready : (s.set k x).ready = s.ready := rfl

@[simp] theorem set_thread : (s.set k x).thread = s.thread := rfl

@[simp] theorem set_postsOf : (s.set k x).postsOf j = s.postsOf j := rfl

@[simp] theorem notify_socket : (s.notify k).socket = s.socket := by
  unfold State.notify
  split <;> rfl

@[simp] theorem notify_registered : (s.notify k).registered = s.registered := by
  unfold State.notify
  split <;> rfl

@[simp] theorem notify_thread : (s.notify k).thread = s.thread := by
  unfold State.notify
  split <;> rfl

@[simp] theorem notify_postsOf : (s.notify k).postsOf j = s.postsOf j := by
  unfold State.notify
  split <;> rfl

theorem mem_notify_ready : j ∈ (s.notify k).ready ↔ j ∈ s.ready ∨ j = k ∧ k ∈ s.registered := by
  unfold State.notify
  split
  · rename_i h
    simp only [List.mem_append, List.mem_singleton]
    constructor
    · rintro (hj | rfl)
      · exact .inl hj
      · exact .inr ⟨rfl, h.1⟩
    · rintro (hj | ⟨rfl, -⟩)
      · exact .inl hj
      · exact .inr rfl
  · rename_i h
    constructor
    · exact .inl
    · rintro (hj | ⟨rfl, hregistered⟩)
      · exact hj
      · exact not_not.mp fun hready => h ⟨hregistered, hready⟩

@[simp] theorem post_postsOf_self : (s.post k out).postsOf k = s.postsOf k ++ out := by
  simp [State.post, State.postsOf, List.filter_map, Function.comp_def]

@[simp] theorem post_postsOf_of_ne (hne : j ≠ k) : (s.post k out).postsOf j = s.postsOf j := by
  have hother : (out.map (k, ·)).filter (fun p => p.1 = j) = [] := by
    simp [List.filter_eq_nil_iff, hne.symm]
  rw [State.post, State.postsOf, List.filter_append, hother, List.append_nil, State.postsOf]

end Frame

section Invariant

variable (h : Handler α β γ)

/-- The thread will still read the socket until nothing is left. -/
def Attended (s : State κ α β γ) (k : κ) : Prop :=
  match s.thread with
  | .wait | .stopped => False
  | .serve batch => k ∈ inputs batch
  | .read j batch => k ∈ inputs batch ∨ j = k ∧ h.mode (s.socket k).handler = .reading

/-- The thread is about to post that the connection has ended. -/
def Shutting (s : State κ α β γ) (k : κ) : Prop :=
  match s.thread with
  | .wait | .stopped | .serve _ => False
  | .read j _ => j = k ∧ h.mode (s.socket k).handler = .shut

/-- What a handler has posted, `out`, fits what it has been given, for each socket `k`. -/
abbrev Accounts (κ α β γ : Type*) := κ → γ → List α → List β → Prop

/-- What is posted about a socket is its opening, then what its handler posts for what
it has been given, then `n` times its closing; and what is there to read is not
forgotten. -/
structure Account (Holds : Accounts κ α β γ) (s : State κ α β γ) (k : κ) (out : List β)
    (n : Nat) : Prop where
  posts : s.postsOf k =
    (s.socket k).entry.elim [] h.opening ++ out ++ List.replicate n h.closing
  holds : Holds k (s.socket k).handler (s.socket k).taken out
  ended : 0 < n ∨ Shutting h s k → (s.socket k).Ended
  awake : k ∈ s.registered → (s.socket k).HasInput →
    k ∈ s.ready ∨ Attended h s k ∨ Shutting h s k ∨ 0 < n

/-- What is kept of every socket, and of the batch that is in hand. -/
structure Inv (Holds : Accounts κ α β γ) (admissible : List α → Prop) (s : State κ α β γ) :
    Prop where
  ready : ∀ k ∈ s.ready, k ∈ s.registered
  hand : ∀ k ∈ inHand s.thread, k ∈ s.registered
  entered : ∀ k ∈ s.registered, (s.socket k).entry ≠ none
  fresh : ∀ k, (s.socket k).entry = none → s.postsOf k = []
  arrived : ∀ k, admissible (s.socket k).arrived
  account : ∀ k, ∃ out n, Account h Holds s k out n
  running : s.thread ≠ .stopped

/-- The code of the handler, one read at a time. -/
structure Handler.Sound (Holds : Accounts κ α β γ) (admissible fits : List α → Prop) : Prop where
  start : ∀ {k g xs out}, Holds k g xs out →
    Holds k (h.start g) xs out ∧ h.mode (h.start g) = .reading
  data : ∀ {k g xs out ys hne g' out'}, Holds k g xs out → h.mode g = .reading →
    admissible (xs ++ ys) → fits ys → h.take g (.data ys hne) g' out' →
    Holds k g' (xs ++ ys) (out ++ out') ∧ h.mode g' = .reading
  again : ∀ {k g xs out g' out'}, Holds k g xs out → h.take g .again g' out' →
    Holds k g' xs out ∧ out' = [] ∧ h.mode g' = .idle
  ended : ∀ {k g xs out input g' out'}, input = .closed ∨ input = .error → Holds k g xs out →
    h.take g input g' out' → Holds k g' xs out ∧ out' = [] ∧ h.mode g' = .shut
  takes_data : ∀ {k g xs out ys hne}, Holds k g xs out → h.mode g = .reading →
    admissible (xs ++ ys) → fits ys → ∃ g' out', h.take g (.data ys hne) g' out'
  takes_again : ∀ g, ∃ g' out', h.take g .again g' out'
  takes_closed : ∀ g, ∃ g' out', h.take g .closed g' out'
  admissible_left : ∀ {xs ys}, admissible (xs ++ ys) → admissible xs
  fits_one : ∀ x, fits [x]

/-- The peers send what is admissible, a read brings no more than fits, a socket is not
taken out of the set while the thread has it in hand, and waiting does not fail. -/
def Guard (admissible fits : List α → Prop) (s : State κ α β γ) : Label κ α → Prop
  | .arrive k xs => admissible ((s.socket k).arrived ++ xs)
  | .recv (.data xs _) => fits xs
  | .unregister k => k ∉ inHand s.thread
  | .waitFails => False
  | _ => True

variable {h} {Holds : Accounts κ α β γ} {admissible fits : List α → Prop} {maxEvents : Nat}
  {s s' : State κ α β γ} {k : κ} {out : List β} {n : Nat}

theorem Account.of_same (ha : Account h Holds s k out n) (hsocket : s'.socket k = s.socket k)
    (hposts : s'.postsOf k = s.postsOf k) (hregistered : k ∈ s'.registered → k ∈ s.registered)
    (hshut : Shutting h s' k ↔ Shutting h s k)
    (hready : k ∈ s.ready ∨ Attended h s k → k ∈ s'.ready ∨ Attended h s' k) :
    Account h Holds s' k out n := by
  obtain ⟨hpost, hholds, hended, hawake⟩ := ha
  constructor
  · rw [hposts, hsocket, hpost]
  · rwa [hsocket]
  · rwa [hsocket, hshut]
  · rw [hsocket, hshut]
    intro hk hinput
    rcases hawake (hregistered hk) hinput with hr | hr | hr
    · rcases hready (.inl hr) with h' | h'
      · exact .inl h'
      · exact .inr (.inl h')
    · rcases hready (.inr hr) with h' | h'
      · exact .inl h'
      · exact .inr (.inl h')
    · exact .inr (.inr hr)

theorem Account.of_fresh (ha : Account h Holds s k out n) (hposts : s.postsOf k = []) :
    out = [] ∧ n = 0 := by
  have hall := ha.posts
  rw [hposts] at hall
  simp only [List.nil_eq, List.append_eq_nil_iff, List.replicate_eq_nil_iff] at hall
  exact ⟨hall.1.2, hall.2⟩

omit [DecidableEq κ] in
theorem attended_congr {t : State κ α β γ} (hthread : t.thread = s.thread)
    (hmode : h.mode (t.socket k).handler = h.mode (s.socket k).handler) :
    Attended h t k ↔ Attended h s k := by
  rw [Attended, Attended, hthread, hmode]

omit [DecidableEq κ] in
theorem shutting_congr {t : State κ α β γ} (hthread : t.thread = s.thread)
    (hmode : h.mode (t.socket k).handler = h.mode (s.socket k).handler) :
    Shutting h t k ↔ Shutting h s k := by
  rw [Shutting, Shutting, hthread, hmode]

theorem Inv.news (hi : Inv h Holds admissible s) {x : Socket α γ}
    (hhandler : x.handler = (s.socket k).handler) (hentry : x.entry = (s.socket k).entry)
    (htaken : x.taken = (s.socket k).taken) (hended : (s.socket k).Ended → x.Ended)
    (harrived : admissible x.arrived) :
    Inv h Holds admissible ((s.set k x).notify k) := by
  have hsame : ∀ j, (((s.set k x).notify k).socket j).handler = (s.socket j).handler ∧
      (((s.set k x).notify k).socket j).entry = (s.socket j).entry := by
    intro j
    rcases eq_or_ne j k with rfl | hne
    · simp [hhandler, hentry]
    · simp [hne]
  have hthread : ((s.set k x).notify k).thread = s.thread := by simp
  constructor
  · intro j hj
    rcases mem_notify_ready.mp hj with hj | ⟨rfl, hj⟩
    · simpa using hi.ready j hj
    · simpa using hj
  · simpa using hi.hand
  · intro j hj
    rw [(hsame j).2]
    exact hi.entered j (by simpa using hj)
  · intro j hj
    rw [(hsame j).2] at hj
    simpa using hi.fresh j hj
  · intro j
    rcases eq_or_ne j k with rfl | hne
    · simpa using harrived
    · simpa [hne] using hi.arrived j
  · intro j
    obtain ⟨out, n, ha⟩ := hi.account j
    have hmode := congrArg h.mode (hsame j).1
    refine ⟨out, n, ?_⟩
    rcases eq_or_ne j k with rfl | hne
    · constructor
      · simpa [hentry] using ha.posts
      · simpa [hhandler, htaken] using ha.holds
      · rw [shutting_congr hthread hmode]
        intro hn
        simpa using hended (ha.ended hn)
      · intro hregistered _
        exact .inl (mem_notify_ready.mpr (.inr ⟨rfl, by simpa using hregistered⟩))
    · refine ha.of_same (by simp [hne]) (by simp) (by simp) (shutting_congr hthread hmode) ?_
      rw [attended_congr hthread hmode, mem_notify_ready]
      rintro (hready | hattended)
      · exact .inl (.inl hready)
      · exact .inr hattended
  · rw [hthread]
    exact hi.running

theorem Inv.unregister (hi : Inv h Holds admissible s) (hk : k ∉ inHand s.thread) :
    Inv h Holds admissible (s.unregister k) := by
  have hmem : ∀ j, j ∈ (s.unregister k).registered ↔ j ∈ s.registered ∧ j ≠ k := by
    intro j
    simp [State.unregister]
  constructor
  · intro j hj
    simp only [State.unregister, List.mem_filter, decide_eq_true_eq] at hj ⊢
    exact ⟨hi.ready j hj.1, hj.2⟩
  · intro j hj
    refine (hmem j).mpr ⟨hi.hand j hj, ?_⟩
    rintro rfl
    exact hk hj
  · exact fun j hj => hi.entered j ((hmem j).mp hj).1
  · exact hi.fresh
  · exact hi.arrived
  · intro j
    obtain ⟨out, n, ha⟩ := hi.account j
    refine ⟨out, n, ?_⟩
    rcases eq_or_ne j k with rfl | hne
    · have hgone : j ∉ _ := fun hregistered => ((hmem j).mp hregistered).2 rfl
      exact ⟨ha.posts, ha.holds, ha.ended, fun hregistered => absurd hregistered hgone⟩
    · refine ha.of_same rfl rfl (fun hj => ((hmem j).mp hj).1) Iff.rfl ?_
      rintro (hready | hattended)
      · exact .inl (by simp [State.unregister, hready, hne])
      · exact .inr hattended
  · exact hi.running

theorem Inv.moves (hi : Inv h Holds admissible s) {ready : List κ} {thread : Thread κ}
    (hready : ∀ j ∈ ready, j ∈ s.ready) (hhand : ∀ j ∈ inHand thread, j ∈ s.registered)
    (hrunning : thread ≠ .stopped)
    (hshut : ∀ j, Shutting h { s with ready, thread } j ↔ Shutting h s j)
    (hawake : ∀ j, j ∈ s.ready ∨ Attended h s j →
      j ∈ ready ∨ Attended h { s with ready, thread } j) :
    Inv h Holds admissible { s with ready, thread } := by
  constructor
  · exact fun j hj => hi.ready j (hready j hj)
  · exact hhand
  · exact hi.entered
  · exact hi.fresh
  · exact hi.arrived
  · intro j
    obtain ⟨out, n, ha⟩ := hi.account j
    exact ⟨out, n, ha.of_same rfl rfl id (hshut j) (hawake j)⟩
  · exact hrunning

theorem Inv.wait (hi : Inv h Holds admissible s) {batch : List (Item κ)} {m : Nat}
    (hthread : s.thread = .wait) (hbatch : inputs batch = s.ready.take m) :
    Inv h Holds admissible { s with ready := s.ready.drop m, thread := .serve batch } := by
  apply hi.moves
  · exact fun j hj => List.mem_of_mem_drop hj
  · intro j hj
    rw [inHand, hbatch] at hj
    exact hi.ready j (List.mem_of_mem_take hj)
  · nofun
  · intro j
    simp [Shutting, hthread]
  · intro j hj
    have hmem : j ∈ s.ready := by simpa [Attended, hthread] using hj
    rw [← List.take_append_drop m s.ready, List.mem_append] at hmem
    rcases hmem with htaken | hleft
    · exact .inr (by simpa [Attended, hbatch] using htaken)
    · exact .inl hleft

theorem Inv.decline (hi : Inv h Holds admissible s) {e : Entry} {batch : List (Item κ)}
    (hthread : s.thread = .serve (.opener e :: batch)) :
    Inv h Holds admissible { s with thread := .serve batch } := by
  apply hi.moves
  · exact fun j hj => hj
  · intro j hj
    exact hi.hand j (by simpa [hthread, inHand] using hj)
  · nofun
  · intro j
    simp [Shutting, hthread]
  · intro j
    simp [Attended, hthread]

theorem Inv.finish (hi : Inv h Holds admissible s) (hthread : s.thread = .serve []) :
    Inv h Holds admissible { s with thread := .wait } := by
  apply hi.moves
  · exact fun j hj => hj
  · simp [inHand]
  · nofun
  · intro j
    simp [Shutting, hthread]
  · intro j
    simp [Attended, hthread]

/-- Away from one socket, a step leaves everything as it is. -/
structure SameElsewhere (h : Handler α β γ) (k : κ) (s t : State κ α β γ) : Prop where
  socket : ∀ j, j ≠ k → t.socket j = s.socket j
  posts : ∀ j, j ≠ k → t.postsOf j = s.postsOf j
  registered : ∀ j, j ≠ k → (j ∈ t.registered ↔ j ∈ s.registered)
  shut : ∀ j, j ≠ k → (Shutting h t j ↔ Shutting h s j)
  awake : ∀ j, j ≠ k → j ∈ s.ready ∨ Attended h s j → j ∈ t.ready ∨ Attended h t j

theorem Inv.at_socket (hi : Inv h Holds admissible s) {t : State κ α β γ}
    (hsame : SameElsewhere h k s t) (hready : ∀ j ∈ t.ready, j ∈ t.registered)
    (hhand : ∀ j ∈ inHand t.thread, j ∈ t.registered) (hentry : (t.socket k).entry ≠ none)
    (harrived : (t.socket k).arrived = (s.socket k).arrived)
    (haccount : ∃ out n, Account h Holds t k out n) (hrunning : t.thread ≠ .stopped) :
    Inv h Holds admissible t := by
  constructor
  · exact hready
  · exact hhand
  · intro j hj
    rcases eq_or_ne j k with rfl | hne
    · exact hentry
    · rw [hsame.socket j hne]
      exact hi.entered j ((hsame.registered j hne).mp hj)
  · intro j hj
    rcases eq_or_ne j k with rfl | hne
    · exact absurd hj hentry
    · rw [hsame.socket j hne] at hj
      rw [hsame.posts j hne]
      exact hi.fresh j hj
  · intro j
    rcases eq_or_ne j k with rfl | hne
    · rw [harrived]
      exact hi.arrived j
    · rw [hsame.socket j hne]
      exact hi.arrived j
  · intro j
    rcases eq_or_ne j k with rfl | hne
    · exact haccount
    · obtain ⟨out, n, ha⟩ := hi.account j
      exact ⟨out, n, ha.of_same (hsame.socket j hne) (hsame.posts j hne)
        (hsame.registered j hne).mp (hsame.shut j hne) (hsame.awake j hne)⟩
  · exact hrunning

theorem Inv.enroll (hi : Inv h Holds admissible s) {e : Entry} {batch : List (Item κ)}
    (hthread : s.thread = .serve (.opener e :: batch)) (hentry : (s.socket k).entry = none) :
    Inv h Holds admissible (({ s with thread := .serve batch } : State κ α β γ).enroll h k e) := by
  set t := ({ s with thread := .serve batch } : State κ α β γ).enroll h k e with ht
  have hself : t.socket k = { s.socket k with entry := some e } := by simp [ht, State.enroll]
  have hthread' : t.thread = .serve batch := rfl
  have hready : t.ready = if (s.socket k).HasInput then s.ready ++ [k] else s.ready := rfl
  have hregistered : t.registered = s.registered ++ [k] := rfl
  have hposts : t.postsOf k = s.postsOf k ++ h.opening e := post_postsOf_self
  apply hi.at_socket (k := k)
  · constructor
    · intro j hne
      simp [ht, State.enroll, hne]
    · intro j hne
      rw [ht, State.enroll, post_postsOf_of_ne hne]
      rfl
    · intro j hne
      simp [hregistered, hne]
    · intro j _
      simp [Shutting, hthread, hthread']
    · intro j _
      rw [hready]
      rintro (hj | hj)
      · left
        split
        · exact List.mem_append_left _ hj
        · exact hj
      · exact .inr (by simpa [Attended, hthread, hthread'] using hj)
  · intro j hj
    rw [hregistered, List.mem_append, List.mem_singleton]
    rw [hready] at hj
    split at hj
    · rcases List.mem_append.mp hj with hj | hj
      · exact .inl (hi.ready j hj)
      · exact .inr (List.mem_singleton.mp hj)
    · exact .inl (hi.ready j hj)
  · intro j hj
    rw [hregistered, List.mem_append]
    exact .inl (hi.hand j (by simpa [hthread, inHand, hthread'] using hj))
  · simp [hself]
  · rw [hself]
    rfl
  · obtain ⟨out, n, ha⟩ := hi.account k
    obtain ⟨rfl, rfl⟩ := ha.of_fresh (hi.fresh k hentry)
    refine ⟨[], 0, ?_, ?_, ?_, ?_⟩
    · simp [hposts, hself, hi.fresh k hentry]
    · rw [hself]
      exact ha.holds
    · simp [Shutting, hthread']
    · rw [hself]
      intro _ hinput
      have hnow : (s.socket k).HasInput := hinput
      simp [hready, hnow]
  · rw [hthread']
    nofun

theorem Inv.start (hsound : h.Sound Holds admissible fits) (hi : Inv h Holds admissible s)
    {batch : List (Item κ)} (hthread : s.thread = .serve (.input k :: batch)) :
    Inv h Holds admissible
      (({ s with thread := .read k batch } : State κ α β γ).set k
        { s.socket k with handler := h.start (s.socket k).handler }) := by
  set t := ({ s with thread := .read k batch } : State κ α β γ).set k
    { s.socket k with handler := h.start (s.socket k).handler } with ht
  have hself : t.socket k = { s.socket k with handler := h.start (s.socket k).handler } := by
    simp [ht]
  have hthread' : t.thread = .read k batch := rfl
  obtain ⟨out, n, ha⟩ := hi.account k
  obtain ⟨hholds, hreading⟩ := hsound.start ha.holds
  have hmem : ∀ j ∈ inHand t.thread, j ∈ s.registered := by
    intro j hj
    exact hi.hand j (by simpa [hthread, inHand, hthread'] using hj)
  apply hi.at_socket (k := k)
  · constructor
    · intro j hne
      simp [ht, hne]
    · exact fun j _ => rfl
    · exact fun j _ => Iff.rfl
    · intro j hne
      simp [Shutting, hthread', hthread, hne.symm]
    · intro j hne
      rintro (hj | hj)
      · exact .inl hj
      · exact .inr (by simpa [Attended, hthread', hthread, hne, hne.symm] using hj)
  · exact hi.ready
  · exact hmem
  · rw [hself]
    exact hi.entered k (hmem k (by simp [hthread', inHand]))
  · rw [hself]
    rfl
  · refine ⟨out, n, ?_, ?_, ?_, ?_⟩
    · rw [hself]
      exact ha.posts
    · rw [hself]
      exact hholds
    · rintro (hn | hn)
      · rw [hself]
        exact ha.ended (.inl hn)
      · simp [Shutting, hthread', hself, hreading] at hn
    · intro _ _
      exact .inr (.inl (by simp [Attended, hthread', hself, hreading]))
  · rw [hthread']
    nofun

section Recv

variable {batch : List (Item κ)} {input : Input α} {g : γ} {before : List β}

theorem afterRecv_self : (afterRecv k input g out s).socket k = { s.socket k with
    handler := g
    taken := (s.socket k).taken ++ input.items
    unread := (s.socket k).unread.drop input.items.length } := by
  simp [afterRecv]

theorem afterRecv_postsOf : (afterRecv k input g out s).postsOf k = s.postsOf k ++ out :=
  post_postsOf_self

omit [DecidableEq κ] in
theorem unread_split {x : Socket α γ} (hbrings : x.Brings input) :
    x.unread = input.items ++ x.unread.drop input.items.length := by
  cases input with
  | data xs hne =>
      obtain ⟨ys, hys⟩ : xs <+: x.unread := hbrings
      simp [Input.items, ← hys]
  | again => rfl
  | closed => rfl
  | error => rfl

theorem afterRecv_arrived (hbrings : (s.socket k).Brings input) :
    ((afterRecv k input g out s).socket k).arrived = (s.socket k).arrived := by
  rw [afterRecv_self, Socket.arrived, Socket.arrived, List.append_assoc, ← unread_split hbrings]

theorem Account.recv_data (hsound : h.Sound Holds admissible fits)
    (ha : Account h Holds s k before n) (hthread : s.thread = .read k batch)
    (hreading : h.mode (s.socket k).handler = .reading) {xs : List α} {hne : xs ≠ []}
    (hbrings : xs <+: (s.socket k).unread) (harrived : admissible (s.socket k).arrived)
    (hfits : fits xs) (htake : h.take (s.socket k).handler (.data xs hne) g out) :
    Account h Holds (afterRecv k (.data xs hne) g out s) k (before ++ out) n := by
  obtain ⟨ys, hys⟩ := hbrings
  -- there is something to read, so the end of the connection is not posted yet
  have hopen : n = 0 := by
    by_contra hn
    have hnone := (ha.ended (.inl (Nat.pos_of_ne_zero hn))).2
    rw [hnone, List.append_eq_nil_iff] at hys
    exact hne hys.1
  rw [Socket.arrived, ← hys, ← List.append_assoc] at harrived
  obtain ⟨hholds, hmode⟩ := hsound.data ha.holds hreading
    (hsound.admissible_left harrived) hfits htake
  have hnow : (afterRecv k (.data xs hne) g out s).thread = .read k batch := hthread
  constructor
  · rw [afterRecv_postsOf, afterRecv_self, ha.posts, hopen]
    simp
  · rw [afterRecv_self]
    exact hholds
  · simp [Shutting, hnow, afterRecv_self, hmode, hopen]
  · intro _ _
    exact .inr (.inl (by simp [Attended, hnow, afterRecv_self, hmode]))

theorem Account.recv_again (hsound : h.Sound Holds admissible fits)
    (ha : Account h Holds s k before n) (hthread : s.thread = .read k batch)
    (hbrings : (s.socket k).Brings .again)
    (htake : h.take (s.socket k).handler .again g out) :
    Account h Holds (afterRecv k .again g out s) k before n := by
  obtain ⟨hholds, rfl, hmode⟩ := hsound.again ha.holds htake
  have hnow : (afterRecv k .again g [] s).thread = .read k batch := hthread
  constructor
  · rw [afterRecv_postsOf, afterRecv_self, ha.posts]
    simp
  · rw [afterRecv_self]
    simpa [Input.items] using hholds
  · simp only [Shutting, hnow, afterRecv_self, hmode]
    rintro (hn | ⟨-, hn⟩)
    · exact ha.ended (.inl hn)
    · cases hn
  · intro _ hinput
    simp [afterRecv_self, Socket.HasInput, Input.items, hbrings.1, hbrings.2] at hinput

theorem Account.recv_ended (hsound : h.Sound Holds admissible fits)
    (ha : Account h Holds s k before n) (hthread : s.thread = .read k batch)
    (hinput : input = .closed ∨ input = .error) (hended : (s.socket k).Ended)
    (htake : h.take (s.socket k).handler input g out) :
    Account h Holds (afterRecv k input g out s) k before n := by
  obtain ⟨hholds, rfl, hmode⟩ := hsound.ended hinput ha.holds htake
  have hnow : (afterRecv k input g [] s).thread = .read k batch := hthread
  have hitems : input.items = [] := by rcases hinput with rfl | rfl <;> rfl
  constructor
  · rw [afterRecv_postsOf, afterRecv_self, ha.posts]
    simp
  · rw [afterRecv_self]
    simpa [hitems] using hholds
  · intro _
    rw [afterRecv_self]
    simpa [Socket.Ended, hitems] using hended
  · intro _ _
    exact .inr (.inr (.inl (by simp [Shutting, hnow, afterRecv_self, hmode])))

theorem Inv.recv (hsound : h.Sound Holds admissible fits) (hi : Inv h Holds admissible s)
    (hthread : s.thread = .read k batch) (hreading : h.mode (s.socket k).handler = .reading)
    (hbrings : (s.socket k).Brings input) (hfits : Guard admissible fits s (.recv input))
    (htake : h.take (s.socket k).handler input g out) :
    Inv h Holds admissible (afterRecv k input g out s) := by
  have hnow : (afterRecv k input g out s).thread = .read k batch := hthread
  obtain ⟨before, n, ha⟩ := hi.account k
  apply hi.at_socket (k := k)
  · constructor
    · intro j hne
      simp [afterRecv, hne]
    · intro j hne
      rw [afterRecv, post_postsOf_of_ne hne]
      rfl
    · exact fun j _ => Iff.rfl
    · intro j hne
      simp [Shutting, hnow, hthread, hne.symm]
    · intro j hne
      rintro (hj | hj)
      · exact .inl hj
      · exact .inr (by simpa [Attended, hnow, hthread, hne.symm] using hj)
  · exact hi.ready
  · rw [hnow, ← hthread]
    exact hi.hand
  · rw [afterRecv_self]
    exact hi.entered k (hi.hand k (by simp [hthread, inHand]))
  · exact afterRecv_arrived hbrings
  · cases input with
    | data xs hne =>
        exact ⟨_, _, ha.recv_data hsound hthread hreading hbrings (hi.arrived k) hfits htake⟩
    | again => exact ⟨_, _, ha.recv_again hsound hthread hbrings htake⟩
    | closed => exact ⟨_, _, ha.recv_ended hsound hthread (.inl rfl) hbrings htake⟩
    | error => exact ⟨_, _, ha.recv_ended hsound hthread (.inr rfl) hbrings htake⟩
  · rw [hnow]
    nofun

theorem Inv.leave (hi : Inv h Holds admissible s) (hthread : s.thread = .read k batch)
    (hmode : h.mode (s.socket k).handler ≠ .reading) :
    Inv h Holds admissible (({ s with thread := .serve batch } : State κ α β γ).post k
      (if h.mode (s.socket k).handler = .shut then [h.closing] else [])) := by
  set t := ({ s with thread := .serve batch } : State κ α β γ).post k
    (if h.mode (s.socket k).handler = .shut then [h.closing] else []) with ht
  have hnow : t.thread = .serve batch := rfl
  have hposts : t.postsOf k = s.postsOf k ++
      if h.mode (s.socket k).handler = .shut then [h.closing] else [] := post_postsOf_self
  have hmem : ∀ j ∈ inHand t.thread, j ∈ s.registered := by
    intro j hj
    exact hi.hand j (by simp_all [inHand])
  apply hi.at_socket (k := k)
  · constructor
    · exact fun j _ => rfl
    · intro j hne
      rw [ht, post_postsOf_of_ne hne]
      rfl
    · exact fun j _ => Iff.rfl
    · intro j hne
      simp [Shutting, hnow, hthread, hne.symm]
    · intro j hne
      rintro (hj | hj)
      · exact .inl hj
      · exact .inr (by simpa [Attended, hnow, hthread, hne.symm] using hj)
  · exact hi.ready
  · exact hmem
  · exact hi.entered k (hi.hand k (by simp [hthread, inHand]))
  · rfl
  · obtain ⟨before, n, ha⟩ := hi.account k
    by_cases hshut : h.mode (s.socket k).handler = .shut
    · have hended : (s.socket k).Ended := ha.ended (.inr (by simp [Shutting, hthread, hshut]))
      refine ⟨before, n + 1, ?_, ha.holds, fun _ => hended, fun _ _ => by simp⟩
      rw [hposts, if_pos hshut, ha.posts, List.replicate_succ', ← List.append_assoc]
      rfl
    · refine ⟨before, n, ?_, ha.holds, ?_, ?_⟩
      · rw [hposts, if_neg hshut, ha.posts, List.append_nil]
        rfl
      · rintro (hn | hn)
        · exact ha.ended (.inl hn)
        · simp [Shutting, hnow] at hn
      · intro hregistered hinput
        have hawake : k ∈ t.ready ∨ Attended h s k ∨ Shutting h s k ∨ 0 < n :=
          ha.awake hregistered hinput
        simpa [Attended, Shutting, hnow, hthread, hmode, hshut] using hawake
  · rw [hnow]
    nofun

end Recv

theorem Inv.step (hsound : h.Sound Holds admissible fits) {l : Label κ α}
    (hi : Inv h Holds admissible s) (hguard : Guard admissible fits s l)
    (hstep : Step h maxEvents s l s') : Inv h Holds admissible s' := by
  cases hstep with
  | @arrive k xs hopen =>
      refine hi.news rfl rfl rfl ?_ ?_
      · intro hended
        rw [hended.1] at hopen
        cases hopen
      · simpa [Socket.arrived, Guard] using hguard
  | @hangUp k =>
      refine hi.news rfl rfl rfl ?_ ?_
      · exact fun hended => ⟨rfl, hended.2⟩
      · exact hi.arrived k
  | unregister => exact hi.unregister hguard
  | wait hthread _ _ hbatch => exact hi.wait hthread hbatch
  | waitFails => exact absurd hguard id
  | enroll hthread hentry => exact hi.enroll hthread hentry
  | decline hthread => exact hi.decline hthread
  | start hthread => exact hi.start hsound hthread
  | recv hthread hreading hbrings htake =>
      exact hi.recv hsound hthread hreading hbrings hguard htake
  | leave hthread hmode => exact hi.leave hthread hmode
  | finish hthread => exact hi.finish hthread

theorem Step.handlers {P : κ → γ → Prop} {l : Label κ α}
    (hstart : ∀ j g, P j g → P j (h.start g))
    (htake : ∀ j g input g' out, P j g → h.take g input g' out → P j g')
    (hall : ∀ j, P j (s.socket j).handler) (hstep : Step h maxEvents s l s') :
    ∀ j, P j (s'.socket j).handler := by
  have hset : ∀ (t : State κ α β γ) (k : κ) (x : Socket α γ), t.socket = s.socket →
      P k x.handler → ∀ j, P j ((t.set k x).socket j).handler := by
    intro t k x ht hx j
    rcases eq_or_ne j k with rfl | hne
    · rwa [set_socket_self]
    · rw [set_socket_of_ne hne, ht]
      exact hall j
  cases hstep with
  | arrive _ | hangUp =>
      intro j
      rw [notify_socket]
      refine hset s _ _ rfl ?_ j
      exact hall _
  | unregister | wait _ _ _ _ | waitFails _ | decline _ | leave _ _ | finish _ => exact hall
  | @enroll k e batch _ _ => exact hset _ k _ rfl (hall k)
  | @start k batch _ => exact hset _ k _ rfl (hstart k _ (hall k))
  | @recv k batch input g out _ _ _ htakes => exact hset s k _ rfl (htake k _ _ _ _ (hall k) htakes)

theorem Step.posted_prefix {l : Label κ α} (hstep : Step h maxEvents s l s') :
    s.posted <+: s'.posted := by
  have hnotify : ∀ (t : State κ α β γ) (k : κ), (t.notify k).posted = t.posted := by
    intro t k
    unfold State.notify
    split <;> rfl
  cases hstep with
  | arrive _ | hangUp =>
      rw [hnotify]
      exact List.prefix_rfl
  | unregister | wait _ _ _ _ | waitFails _ | decline _ | start _ | finish _ =>
      exact List.prefix_rfl
  | enroll _ _ | recv _ _ _ _ | leave _ _ => exact List.prefix_append _ _

theorem Run.inv {s₀ : State κ α β γ} {trs : List (Transition (State κ α β γ) (Label κ α))}
    (hsound : h.Sound Holds admissible fits) (hrun : Run (Step h maxEvents) s₀ trs s)
    (hguard : ∀ tr ∈ trs, Guard admissible fits tr.before tr.label)
    (hi : Inv h Holds admissible s₀) : Inv h Holds admissible s :=
  (hrun.invariant (fun _ _ _ ha hl hstep => ha.step hsound hl hstep) hi hguard).2

end Invariant

end EdgeTriggered
