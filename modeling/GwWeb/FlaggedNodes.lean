import GwWeb.FirstMatch

/-!
Sessions whose flag is to say whether the first of the nodes with their key is
running. Sessions come and go, nodes are added, switched and cleared.
-/

namespace FlaggedNodes

open FirstMatch

variable {κ α : Type*} [DecidableEq κ]

/-- Sessions with a flag each, and nodes by key. -/
structure Desk (κ α : Type*) where
  flags : List (κ × Int)
  nodes : List (κ × α)
  running : α → Prop

namespace Desk

/-- The first node with a key. -/
def find (d : Desk κ α) (k : κ) : Option (κ × α) := d.nodes.find? fun x => x.1 = k

/-- The node that is found under the key runs. -/
def Saves (d : Desk κ α) (k : κ) : Prop := ∃ x, d.find k = some x ∧ d.running x.2

def sessions (d : Desk κ α) (k : κ) : Nat := d.flags.countP fun x => x.1 = k

/-- A flag is set exactly where the node under its key runs. -/
def Matched (d : Desk κ α) : Prop := ∀ x ∈ d.flags, x.2 ≠ 0 ↔ d.Saves x.1

/-- The flags are right, and each running node is found under its key, which one
session has. -/
structure Kept (d : Desk κ α) : Prop where
  matched : d.Matched
  distinct : (d.nodes.map Prod.snd).Nodup
  single : ∀ a, d.running a → ∃ x, d.find x.1 = some x ∧ x.2 = a ∧ d.sessions x.1 = 1

def enter (d : Desk κ α) (k : κ) : Desk κ α := { d with flags := d.flags ++ [(k, 0)] }

def append (d : Desk κ α) (k : κ) (a : α) : Desk κ α := { d with nodes := d.nodes ++ [(k, a)] }

/-- The first session with key `k` gets flag `v`, and the node found under `k`
runs if `b`. -/
structure Switches (k : κ) (v : Int) (b : Prop) (d d' : Desk κ α) : Prop where
  flags : d'.flags = updateFirst (fun x => x.1 = k) (fun x => (x.1, v)) d.flags
  nodes : d'.nodes = d.nodes
  here : ∀ x, d.find k = some x → (d'.running x.2 ↔ b)
  others : ∀ a, (∀ x, d.find k = some x → x.2 ≠ a) → (d'.running a ↔ d.running a)

/-- The first session with key `k` goes; the node found under `k` stops if its
flag `v` says so. -/
structure Leaves (k : κ) (v : Int) (d d' : Desk κ α) : Prop where
  flags : d'.flags = d.flags.eraseP fun x => x.1 = k
  nodes : d'.nodes = d.nodes ∨ d'.nodes = d.nodes.eraseP fun x => x.1 = k
  running : ∀ a, d'.running a ↔ d.running a ∧ (v ≠ 0 → ∀ x, d.find k = some x → x.2 ≠ a)

/-- Node `a` stops, and may be taken off the list. -/
structure Clears [DecidableEq α] (a : α) (d d' : Desk κ α) : Prop where
  flags : d'.flags = d.flags
  nodes : d'.nodes = d.nodes ∨ d'.nodes = d.nodes.eraseP fun x => x.2 = a
  running : ∀ b, d'.running b ↔ d.running b ∧ b ≠ a

variable {d d' : Desk κ α} {k : κ} {v : Int} {b : Prop} {a : α}

theorem find_key {x : κ × α} (h : d.find k = some x) : x.1 = k := by
  simpa using List.find?_some h

theorem find_mem {x : κ × α} (h : d.find k = some x) : x ∈ d.nodes :=
  List.mem_of_find?_eq_some h

theorem Kept.eq_of_node (h : d.Kept) {x y : κ × α} (hx : x ∈ d.nodes) (hy : y ∈ d.nodes)
    (heq : x.2 = y.2) : x = y :=
  List.inj_on_of_nodup_map h.distinct hx hy heq

theorem Kept.find_of_running (h : d.Kept) {x : κ × α} (hx : x ∈ d.nodes)
    (hrun : d.running x.2) : d.find x.1 = some x ∧ d.sessions x.1 = 1 := by
  obtain ⟨y, hfind, heq, hone⟩ := h.single x.2 hrun
  obtain rfl := h.eq_of_node (find_mem hfind) hx heq
  exact ⟨hfind, hone⟩

theorem Kept.sessions_of_saves (h : d.Kept) (hsaves : d.Saves k) : d.sessions k = 1 := by
  obtain ⟨x, hfind, hrun⟩ := hsaves
  have hone := (h.find_of_running (find_mem hfind) hrun).2
  rwa [find_key hfind] at hone

theorem Kept.flag_eq_zero (h : d.Kept) {x : κ × Int} (hx : x ∈ d.flags)
    (hidle : ¬ d.Saves x.1) : x.2 = 0 := by
  by_contra hflag
  exact hidle ((h.matched x hx).mp hflag)

theorem Kept.saves_of_fewer (h : d.Kept) (hnodes : ∀ x ∈ d'.nodes, x ∈ d.nodes)
    (hrunning : ∀ a, d'.running a → d.running a) (hsaves : d'.Saves k) : d.Saves k := by
  obtain ⟨x, hfind, hrun⟩ := hsaves
  have hfirst := (h.find_of_running (hnodes x (find_mem hfind)) (hrunning _ hrun)).1
  rw [find_key hfind] at hfirst
  exact ⟨x, hfirst, hrunning _ hrun⟩

section Enter

theorem Kept.enter (h : d.Kept) (hidle : ¬ d.Saves k) : (d.enter k).Kept where
  matched := by
    intro x hx
    rcases List.mem_append.mp hx with hold | hnew
    · exact h.matched x hold
    · obtain rfl := List.mem_singleton.mp hnew
      exact ⟨fun hzero => absurd rfl hzero, fun hsaves => absurd hsaves hidle⟩
  distinct := h.distinct
  single := by
    intro a hrun
    obtain ⟨x, hfind, rfl, hone⟩ := h.single a hrun
    refine ⟨x, hfind, rfl, ?_⟩
    have hne : k ≠ x.1 := by
      rintro rfl
      exact hidle ⟨x, hfind, hrun⟩
    simpa [sessions, Desk.enter, hne] using hone

theorem not_matched_enter (hsaves : d.Saves k) : ¬ (d.enter k).Matched := by
  intro hmatched
  have hflag := (hmatched (k, 0) (by simp [Desk.enter])).mpr hsaves
  exact hflag rfl

end Enter

theorem Kept.append (h : d.Kept) (hfresh : a ∉ d.nodes.map Prod.snd) (hidle : ¬ d.running a) :
    (d.append k a).Kept := by
  have hfind : ∀ j x, d.find j = some x → (d.append k a).find j = some x := by
    intro j x hx
    simp only [find, Desk.append, List.find?_append] at hx ⊢
    rw [hx]
    rfl
  have hsaves : ∀ j, (d.append k a).Saves j ↔ d.Saves j := by
    intro j
    constructor
    · rintro ⟨x, hx, hrun⟩
      simp only [find, Desk.append, List.find?_append, Option.or_eq_some_iff] at hx
      rcases hx with hold | ⟨-, hnew⟩
      · exact ⟨x, hold, hrun⟩
      · have hmem := List.mem_of_find?_eq_some hnew
        obtain rfl := List.mem_singleton.mp hmem
        exact absurd hrun hidle
    · rintro ⟨x, hx, hrun⟩
      exact ⟨x, hfind j x hx, hrun⟩
  refine ⟨fun x hx => ?_, ?_, ?_⟩
  · rw [hsaves]
    exact h.matched x hx
  · simp only [Desk.append, List.map_append, List.map_cons, List.map_nil]
    exact List.nodup_append.mpr ⟨h.distinct, by simp, by grind⟩
  · intro c hrun
    obtain ⟨x, hx, rfl, hone⟩ := h.single c hrun
    exact ⟨x, hfind _ x hx, rfl, hone⟩

section Switch

theorem Switches.find (hs : Switches k v b d d') (j : κ) : d'.find j = d.find j := by
  simp only [Desk.find, hs.nodes]

theorem Switches.sessions (hs : Switches k v b d d') (j : κ) : d'.sessions j = d.sessions j := by
  have hcount := fun l : List (κ × Int) =>
    List.countP_map (p := fun c => decide (c = j)) (f := Prod.fst) (l := l)
  have hkeys := map_updateFirst (p := fun x => decide (x.1 = k)) (f := fun x => (x.1, v))
    (Prod.fst : κ × Int → κ) (fun _ _ => rfl) d.flags
  unfold Desk.sessions
  rw [hs.flags]
  have hleft := hcount (updateFirst (fun x => decide (x.1 = k)) (fun x => (x.1, v)) d.flags)
  rw [hkeys, hcount] at hleft
  exact hleft.symm

theorem Kept.saves_switch_of_ne (h : d.Kept) (hs : Switches k v b d d') {j : κ} (hj : j ≠ k) :
    d'.Saves j ↔ d.Saves j := by
  unfold Saves
  simp only [hs.find]
  apply exists_congr
  intro x
  apply and_congr_right
  intro hx
  apply hs.others
  intro y hy heq
  obtain rfl := h.eq_of_node (find_mem hy) (find_mem hx) heq
  exact hj ((find_key hx).symm.trans (find_key hy))

theorem Switches.saves {x : κ × α} (hs : Switches k v b d d') (hx : d.find k = some x) :
    d'.Saves k ↔ b := by
  constructor
  · rintro ⟨y, hy, hrun⟩
    rw [hs.find, hx] at hy
    obtain rfl := Option.some.inj hy
    exact (hs.here x hx).mp hrun
  · intro hb
    exact ⟨x, (hs.find k).trans hx, (hs.here x hx).mpr hb⟩

theorem Kept.flag_of_split (h : d.Kept) {l₁ l₂ : List (κ × Int)} {z y : κ × Int}
    (hsplit : d.flags = l₁ ++ z :: l₂) (hz : z.1 = k) (hy : y ∈ l₂) (hkey : y.1 = k) :
    d.sessions k ≠ 1 ∧ y.2 = 0 := by
  have hmany : d.sessions k ≠ 1 := by
    have hpos : 0 < l₂.countP fun x => x.1 = k :=
      List.countP_pos_iff.mpr ⟨y, hy, by simpa using hkey⟩
    simp only [sessions, hsplit, List.countP_append, List.countP_cons, hz, decide_true, if_true]
    omega
  refine ⟨hmany, h.flag_eq_zero (by simp [hsplit, hy]) fun hsaves => hmany ?_⟩
  rw [← hkey]
  exact h.sessions_of_saves hsaves

theorem Kept.switch (h : d.Kept) (hs : Switches k v b d d') {x : κ × α}
    (hx : d.find k = some x) (hv : v ≠ 0 ↔ b) (hone : b → d.sessions k = 1) : d'.Kept where
  matched := by
    intro y hy
    rw [hs.flags] at hy
    rcases eq_or_ne y.1 k with hkey | hne
    · rw [hkey, hs.saves hx]
      rcases hfirst : d.flags.find? fun z => z.1 = k with _ | z
      · rw [updateFirst_of_find?_eq_none hfirst] at hy
        have hnone := List.find?_eq_none.mp hfirst y hy
        exact absurd hkey (by simpa using hnone)
      · obtain ⟨l₁, l₂, hsplit, hl₁, -, hupdate⟩ := exists_split hfirst
        have hz : z.1 = k := by simpa using List.find?_some hfirst
        rw [hupdate, List.mem_append, List.mem_cons] at hy
        rcases hy with hy | rfl | hy
        · exact absurd (by simpa using hkey) (hl₁ y hy)
        · exact hv
        · obtain ⟨hmany, hzero⟩ := h.flag_of_split hsplit hz hy hkey
          exact ⟨fun hflag => absurd hzero hflag, fun hb => absurd (hone hb) hmany⟩
    · rw [h.saves_switch_of_ne hs hne]
      rcases mem_updateFirst hy with hold | ⟨z, -, hz, rfl⟩
      · exact h.matched y hold
      · exact absurd (by simpa using hz) hne
  distinct := by
    rw [hs.nodes]
    exact h.distinct
  single := by
    intro a hrun
    rcases eq_or_ne x.2 a with rfl | hne
    · refine ⟨x, ?_, rfl, ?_⟩
      · rw [hs.find, find_key hx, hx]
      · rw [hs.sessions, find_key hx]
        exact hone ((hs.here x hx).mp hrun)
    · have hother : ∀ y, d.find k = some y → y.2 ≠ a := by
        intro y hy
        obtain rfl := Option.some.inj (hx.symm.trans hy)
        exact hne
      obtain ⟨y, hy, rfl, hsingle⟩ := h.single a ((hs.others a hother).mp hrun)
      exact ⟨y, (hs.find _).trans hy, rfl, (hs.sessions _).trans hsingle⟩

/-- The condition of `Kept.switch` cannot be spared. -/
theorem Kept.switch_of_matched (h : d.Kept) (hs : Switches k v b d d') {x : κ × α}
    (hx : d.find k = some x) (hlisted : k ∈ d.flags.map Prod.fst) (hmatched : d'.Matched) :
    (v ≠ 0 ↔ b) ∧ (b → d.sessions k = 1) := by
  obtain ⟨z, hz⟩ : ∃ z, (d.flags.find? fun z => z.1 = k) = some z := by
    apply Option.isSome_iff_exists.mp
    simpa [List.find?_isSome] using hlisted
  obtain ⟨l₁, l₂, hsplit, hl₁, -, hupdate⟩ := exists_split hz
  have hkey : z.1 = k := by simpa using List.find?_some hz
  have hflags : d'.flags = l₁ ++ (z.1, v) :: l₂ := hs.flags.trans (hupdate _)
  refine ⟨?_, fun hb => ?_⟩
  · have hfirst := hmatched (z.1, v) (by simp [hflags])
    rwa [hkey, hs.saves hx] at hfirst
  · have hnone : l₂.countP (fun y => y.1 = k) = 0 := by
      apply List.countP_eq_zero.mpr
      intro y hy hyk
      have hyk : y.1 = k := by simpa using hyk
      have hzero := (h.flag_of_split hsplit hkey hy hyk).2
      refine absurd hzero ((hmatched y (by simp [hflags, hy])).mpr ?_)
      rw [hyk, hs.saves hx]
      exact hb
    have hl₁ : l₁.countP (fun y => y.1 = k) = 0 := List.countP_eq_zero.mpr hl₁
    simp only [sessions, hsplit, List.countP_append, List.countP_cons, hkey, hnone, hl₁,
      decide_true, if_true]

end Switch

section Leave

theorem Leaves.mem (hl : Leaves k v d d') {x : κ × α} (hx : x ∈ d'.nodes) : x ∈ d.nodes := by
  rcases hl.nodes with heq | heq
  · rwa [heq] at hx
  · rw [heq] at hx
    exact List.mem_of_mem_eraseP hx

theorem Leaves.distinct (h : d.Kept) (hl : Leaves k v d d') :
    (d'.nodes.map Prod.snd).Nodup := by
  rcases hl.nodes with heq | heq
  · rw [heq]
    exact h.distinct
  · rw [heq]
    exact h.distinct.sublist (List.eraseP_sublist.map _)

theorem Leaves.find (hl : Leaves k v d d') {j : κ} {x : κ × α} (hx : d.find j = some x)
    (hj : j ≠ k) : d'.find j = some x := by
  unfold Desk.find
  rcases hl.nodes with heq | heq
  · rw [heq]
    exact hx
  · rw [heq]
    refine find?_eraseP_of_not hx ?_
    simpa [find_key hx] using hj

theorem Kept.not_saves_leave (h : d.Kept) (hl : Leaves k v d d')
    (hfirst : (d.flags.find? fun x => x.1 = k) = some (k, v)) : ¬ d'.Saves k := by
  have hmem := List.mem_of_find?_eq_some hfirst
  rintro ⟨x, hx, hrun⟩
  obtain ⟨hrun, hstopped⟩ := (hl.running _).mp hrun
  obtain ⟨hfind, -⟩ := h.find_of_running (hl.mem (find_mem hx)) hrun
  rw [find_key hx] at hfind
  exact hstopped ((h.matched _ hmem).mpr ⟨x, hfind, hrun⟩) x hfind rfl

theorem Kept.running_leave (h : d.Kept) (hl : Leaves k v d d') {x : κ × α}
    (hx : d.find x.1 = some x) (hne : x.1 ≠ k) (hrun : d.running x.2) : d'.running x.2 := by
  refine (hl.running _).mpr ⟨hrun, fun _ y hy heq => hne ?_⟩
  obtain rfl := h.eq_of_node (find_mem hy) (find_mem hx) heq
  exact find_key hy

theorem Kept.saves_leave_of_ne (h : d.Kept) (hl : Leaves k v d d') {j : κ} (hj : j ≠ k) :
    d'.Saves j ↔ d.Saves j := by
  constructor
  · exact h.saves_of_fewer (fun x hx => hl.mem hx) fun a hrun => ((hl.running a).mp hrun).1
  · rintro ⟨x, hx, hrun⟩
    have hkey := find_key hx
    exact ⟨x, hl.find hx hj,
      h.running_leave hl (hkey ▸ hx) (hkey ▸ hj) hrun⟩

theorem Kept.leave (h : d.Kept) (hl : Leaves k v d d')
    (hfirst : (d.flags.find? fun x => x.1 = k) = some (k, v)) : d'.Kept where
  matched := by
    intro y hy
    rw [hl.flags] at hy
    have hold := List.mem_of_mem_eraseP hy
    rcases eq_or_ne y.1 k with hkey | hne
    · obtain ⟨l₁, l₂, hsplit, hl₁, herase, -⟩ := exists_split hfirst
      rw [herase, List.mem_append] at hy
      rcases hy with hy | hy
      · exact absurd (by simpa using hkey) (hl₁ y hy)
      · have hzero := (h.flag_of_split hsplit rfl hy hkey).2
        rw [hkey]
        exact ⟨fun hflag => absurd hzero hflag,
          fun hsaves => absurd hsaves (h.not_saves_leave hl hfirst)⟩
    · rw [h.saves_leave_of_ne hl hne]
      exact h.matched y hold
  distinct := hl.distinct h
  single := by
    intro a hrun
    obtain ⟨hrun, hstopped⟩ := (hl.running a).mp hrun
    obtain ⟨x, hx, rfl, hone⟩ := h.single a hrun
    have hne : x.1 ≠ k := by
      intro hkey
      have hx' : d.find k = some x := hkey ▸ hx
      have hflag := (h.matched _ (List.mem_of_find?_eq_some hfirst)).mpr ⟨x, hx', hrun⟩
      exact hstopped hflag x hx' rfl
    refine ⟨x, hl.find hx hne, rfl, ?_⟩
    rw [← hone]
    obtain ⟨l₁, l₂, hsplit, -, herase, -⟩ := exists_split hfirst
    simp only [sessions, hl.flags, herase]
    rw [hsplit]
    simp [hne.symm]

/-- A session enters, and the first session with its key, which may be another
one, leaves. -/
theorem Kept.enter_leave (h : d.Kept) (hl : Leaves k v (d.enter k) d')
    (hfirst : ((d.enter k).flags.find? fun x => x.1 = k) = some (k, v)) : d'.Kept := by
  rcases hold : d.flags.find? fun x => x.1 = k with _ | z
  · refine (h.enter fun hsaves => ?_).leave hl hfirst
    have hone := h.sessions_of_saves hsaves
    have hzero : d.sessions k = 0 := by
      apply List.countP_eq_zero.mpr
      intro x hx
      exact List.find?_eq_none.mp hold x hx
    omega
  · -- the one that leaves was there: it might as well have left first
    obtain ⟨l₁, l₂, hsplit, hl₁, herase, -⟩ := exists_split hold
    have hz : z = (k, v) := by
      simp only [Desk.enter, List.find?_append, hold, Option.some_or, Option.some.injEq] at hfirst
      exact hfirst
    let d₁ : Desk κ α := { d' with flags := d.flags.eraseP fun x => x.1 = k }
    have hl₁ : Leaves k v d d₁ := ⟨rfl, hl.nodes, hl.running⟩
    have hd' : d' = d₁.enter k := by
      have hflags : d'.flags = d₁.flags ++ [(k, 0)] := by
        rw [hl.flags]
        have hkey : z.1 = k := by simpa using List.find?_some hold
        exact List.eraseP_append_left (p := fun x => decide (x.1 = k)) (decide_eq_true hkey) _
          (List.mem_of_find?_eq_some hold)
      simp only [Desk.enter, ← hflags, d₁]
    rw [hd']
    exact (h.leave hl₁ (hz ▸ hold)).enter (h.not_saves_leave hl₁ (hz ▸ hold))

end Leave

section Clear

variable [DecidableEq α]

omit [DecidableEq κ] in
theorem Clears.mem (hc : Clears a d d') {x : κ × α} (hx : x ∈ d'.nodes) : x ∈ d.nodes := by
  rcases hc.nodes with heq | heq
  · rwa [heq] at hx
  · rw [heq] at hx
    exact List.mem_of_mem_eraseP hx

theorem Clears.find (hc : Clears a d d') {x : κ × α} (hx : d.find k = some x) (hne : x.2 ≠ a) :
    d'.find k = some x := by
  unfold Desk.find
  rcases hc.nodes with heq | heq
  · rw [heq]
    exact hx
  · rw [heq]
    exact find?_eraseP_of_not hx (by simpa using hne)

theorem Kept.clear (h : d.Kept) (hc : Clears a d d') (hidle : ¬ d.running a) : d'.Kept := by
  have hne : ∀ {c}, d.running c → c ≠ a := by
    rintro c hrun rfl
    exact hidle hrun
  have hsaves : ∀ j, d'.Saves j ↔ d.Saves j := by
    intro j
    constructor
    · exact h.saves_of_fewer (fun x hx => hc.mem hx) fun c hrun => ((hc.running c).mp hrun).1
    · rintro ⟨x, hx, hrun⟩
      exact ⟨x, hc.find hx (hne hrun), (hc.running _).mpr ⟨hrun, hne hrun⟩⟩
  refine ⟨fun x hx => ?_, ?_, fun c hrun => ?_⟩
  · rw [hc.flags] at hx
    rw [hsaves]
    exact h.matched x hx
  · rcases hc.nodes with heq | heq
    · rw [heq]
      exact h.distinct
    · rw [heq]
      exact h.distinct.sublist (List.eraseP_sublist.map _)
  · obtain ⟨hrun, -⟩ := (hc.running c).mp hrun
    obtain ⟨x, hx, rfl, hone⟩ := h.single c hrun
    refine ⟨x, hc.find hx (hne hrun), rfl, ?_⟩
    rw [← hone, sessions, sessions, hc.flags]

theorem Kept.not_matched_clear (h : d.Kept) (hc : Clears a d d') (hrun : d.running a) :
    ¬ d'.Matched := by
  intro hmatched
  obtain ⟨x, hx, rfl, hone⟩ := h.single a hrun
  obtain ⟨y, hy, hkey⟩ : ∃ y ∈ d.flags, y.1 = x.1 := by
    have hpos : 0 < d.flags.countP fun y => y.1 = x.1 := by
      unfold sessions at hone
      omega
    simpa using List.countP_pos_iff.mp hpos
  have hflag : y.2 ≠ 0 := (h.matched y hy).mpr (hkey ▸ ⟨x, hx, hrun⟩)
  obtain ⟨w, hw, hwrun⟩ := (hmatched y (hc.flags ▸ hy)).mp hflag
  obtain ⟨hwrun, hne⟩ := (hc.running _).mp hwrun
  obtain ⟨hfirst, -⟩ := h.find_of_running (hc.mem (find_mem hw)) hwrun
  rw [find_key hw, hkey, hx] at hfirst
  exact hne (congrArg Prod.snd (Option.some.inj hfirst)).symm

end Clear

end Desk

end FlaggedNodes
