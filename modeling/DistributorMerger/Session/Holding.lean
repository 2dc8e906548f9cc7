import DistributorMerger.Ledger.Holdings
import DistributorMerger.Session.System

/-!
# What sessions hold

A session holds the descriptor that it would lose track of if it were cleared: its own descriptor,
that of its capture handle and that of its dumper, which for every module are the same one. The
`fd` of a capture session is only a note for the supervisor, and is out of date when the handle has
been closed.

Over a run the sessions take descriptors from the kernel and give them back as the holders of a
ledger do. Whether a stop gives back all that its session held is left open here.
-/

namespace DistributorMerger

/-! ## Holding -/

/-- The session's `fd` is a descriptor of its own, not a note about the capture handle. -/
def Session.OwnsFd (s : Session) : Prop :=
  s.module ≠ some .livecapture ∧ s.module ≠ some .filecapture

instance (s : Session) : Decidable s.OwnsFd := by
  unfold Session.OwnsFd
  infer_instance

theorem Session.ownsFd_of_module {s : Session} {m : Module} (hm : s.module = some m)
    (hlive : m ≠ .livecapture) (hfile : m ≠ .filecapture) : s.OwnsFd := by
  rw [Session.OwnsFd, hm]
  simpa using ⟨hlive, hfile⟩

/-- The descriptor of its own. -/
def Session.ownFds (s : Session) : Finset ℤ := if s.OwnsFd ∧ 0 < s.fd then {s.fd} else ∅

/-- The descriptor of the dumper. -/
def Session.dumperFds (s : Session) : Finset ℤ := (s.pcapDumper.map (·.fd)).toFinset

/-- The descriptors that a session holds. -/
def Session.held (s : Session) : Finset ℤ := s.ownFds ∪ s.handleFds ∪ s.dumperFds

/-- What the descriptors of a session of a module look like. -/
def Module.Shape : Module → Session → Prop
  | .client, s => s.pcapDumper = none ∧
    ∀ handle, s.pcapHandle = some handle → handle.fd = s.fd ∧ 0 < s.fd
  | .clientconn, s => s.pcapHandle = none ∧ (s.state ≠ .unused → 0 < s.fd) ∧
    ∀ dumper, s.pcapDumper = some dumper → dumper.fd = s.fd ∧ 0 < s.fd
  | .merger, s => s.pcapHandle = none ∧ (s.pcapDumper = none → s.fd = 0) ∧
    ∀ dumper, s.pcapDumper = some dumper → s.fd = 0 ∨ s.fd = dumper.fd
  | .server, s => s.pcapHandle = none ∧ s.pcapDumper = none
  | .livecapture, s | .filecapture, s => s.pcapDumper = none

/-- What is true of every slot. -/
structure Session.Fit (s : Session) : Prop where
  /-- A slot in use has a module. -/
  used : s.state ≠ .unused → ∃ m, s.module = some m
  /-- An unused slot holds nothing. -/
  unused : s.state = .unused → s.held = ∅
  /-- A session to be started is fit for its runner. -/
  start : s.state = .start → ∀ m, s.module = some m →
    m.Startable s.fd s.pcapHandle s.pcapDumper
  /-- The descriptors belong to the module. -/
  shape : ∀ m, s.module = some m → m.Shape s

/-- The fields that decide what a session holds are the same. -/
structure Session.Alike (s s' : Session) : Prop where
  /-- The module. -/
  module : s'.module = s.module
  /-- The state. -/
  state : s'.state = s.state
  /-- The descriptor. -/
  fd : s'.fd = s.fd
  /-- The capture handle. -/
  pcapHandle : s'.pcapHandle = s.pcapHandle
  /-- The dumper. -/
  pcapDumper : s'.pcapDumper = s.pcapDumper

section Session

variable {s s' : Session}

theorem Session.Alike.refl (s : Session) : s.Alike s := ⟨rfl, rfl, rfl, rfl, rfl⟩

theorem Session.held_congr (hmodule : s'.module = s.module) (hfd : s'.fd = s.fd)
    (hhandle : s'.pcapHandle = s.pcapHandle) (hdumper : s'.pcapDumper = s.pcapDumper) :
    s'.held = s.held := by
  have howns : s'.ownFds = s.ownFds := by
    rw [Session.ownFds, Session.ownFds, hfd]
    refine if_congr (and_congr ?_ Iff.rfl) rfl rfl
    rw [Session.OwnsFd, Session.OwnsFd, hmodule]
  rw [Session.held, Session.held, howns, Session.handleFds, Session.handleFds, Session.dumperFds,
    Session.dumperFds, hhandle, hdumper]

theorem Session.Alike.held (h : s.Alike s') : s'.held = s.held :=
  Session.held_congr h.module h.fd h.pcapHandle h.pcapDumper

theorem Session.Alike.shape (h : s.Alike s') {m : Module} (hs : m.Shape s) : m.Shape s' := by
  cases m <;> simp only [Module.Shape, h.state, h.fd, h.pcapHandle, h.pcapDumper] at hs ⊢ <;>
    exact hs

theorem Session.Alike.fit (h : s.Alike s') (hs : s.Fit) : s'.Fit where
  used := by
    rw [h.state, h.module]
    exact hs.used
  unused := by
    rw [h.state, h.held]
    exact hs.unused
  start := by
    rw [h.state, h.module, h.fd, h.pcapHandle, h.pcapDumper]
    exact hs.start
  shape := by
    intro m hm
    rw [h.module] at hm
    exact h.shape (hs.shape m hm)

theorem Session.fit_of_shape {m : Module} (hm : s.module = some m) (hused : s.state ≠ .unused)
    (hstart : s.state ≠ .start) (hshape : m.Shape s) : s.Fit where
  used := fun _ ↦ ⟨m, hm⟩
  unused := fun h ↦ absurd h hused
  start := fun h ↦ absurd h hstart
  shape := by
    intro m' hm'
    obtain rfl := Option.some.inj (hm.symm.trans hm')
    exact hshape

theorem Session.Fit.setState (hs : s.Fit) (hused : s.state ≠ .unused) {newState : SessionState}
    (hnew : newState ≠ .unused ∧ newState ≠ .start) :
    Session.Fit { s with state := newState } := by
  obtain ⟨m, hm⟩ := hs.used hused
  refine Session.fit_of_shape (m := m) hm hnew.1 hnew.2 ?_
  have hshape := hs.shape m hm
  cases m with
  | clientconn => exact ⟨hshape.1, fun _ ↦ hshape.2.1 hused, hshape.2.2⟩
  | _ => exact hshape

theorem Session.held_eq_empty (hfd : s.OwnsFd → s.fd ≤ 0) (hhandle : s.pcapHandle = none)
    (hdumper : s.pcapDumper = none) : s.held = ∅ := by
  rw [Session.held, Session.ownFds, Session.handleFds, Session.dumperFds, hhandle, hdumper, if_neg]
  · rfl
  · rintro ⟨howns, hpos⟩
    exact absurd (hfd howns) (Int.not_le.mpr hpos)

theorem Session.held_of_fd (howns : s.OwnsFd) (hfd : 0 < s.fd)
    (hhandle : ∀ handle, s.pcapHandle = some handle → handle.fd = s.fd)
    (hdumper : ∀ dumper, s.pcapDumper = some dumper → dumper.fd = s.fd) : s.held = {s.fd} := by
  have h₁ : s.ownFds = {s.fd} := if_pos ⟨howns, hfd⟩
  have h₂ : s.handleFds ⊆ {s.fd} := by
    rw [Session.handleFds]
    cases h : s.pcapHandle with
    | none => exact Finset.empty_subset _
    | some handle =>
      rw [Option.map_some, hhandle handle h]
      rfl
  have h₃ : s.dumperFds ⊆ {s.fd} := by
    rw [Session.dumperFds]
    cases h : s.pcapDumper with
    | none => exact Finset.empty_subset _
    | some dumper =>
      rw [Option.map_some, hdumper dumper h]
      rfl
  rw [Session.held, h₁, Finset.union_assoc]
  exact Finset.union_eq_left.mpr (Finset.union_subset h₂ h₃)

theorem Session.held_of_handle {handle : PcapHandle} (howns : ¬ s.OwnsFd)
    (hhandle : s.pcapHandle = some handle) (hdumper : s.pcapDumper = none) :
    s.held = {handle.fd} := by
  rw [Session.held, Session.ownFds, if_neg fun h ↦ howns h.1, Session.handleFds,
    Session.dumperFds, hhandle, hdumper]
  rfl

theorem Session.held_of_dumper {dumper : PcapDumper} (hhandle : s.pcapHandle = none)
    (hdumper : s.pcapDumper = some dumper) (hfd : s.fd = 0 ∨ s.fd = dumper.fd) :
    s.held = {dumper.fd} := by
  have h₁ : s.ownFds ⊆ {dumper.fd} := by
    rw [Session.ownFds]
    split
    · rename_i h
      rcases hfd with hfd | hfd
      · rw [hfd] at h
        exact absurd h.2 (lt_irrefl 0)
      · rw [hfd]
    · exact Finset.empty_subset _
  rw [Session.held, Session.handleFds, Session.dumperFds, hhandle, hdumper]
  exact Finset.union_eq_right.mpr (Finset.union_subset h₁ (Finset.empty_subset _))

theorem World.sessionFds_subset (answer : Query → ℤ) (w : World) (i : Slot)
    (howns : (w.session i).OwnsFd) : w.sessionFds answer i ⊆ (w.session i).ownFds := by
  rw [World.sessionFds, Session.ownFds]
  split
  · rename_i h
    rw [if_pos ⟨howns, h.1⟩]
  · exact Finset.empty_subset _

theorem World.dumperFds_subset (answer : Query → ℤ) (w : World) (i : Slot) :
    w.dumperFds answer i ⊆ (w.session i).dumperFds := by
  rw [World.dumperFds, Session.dumperFds]
  cases (w.session i).pcapDumper with
  | none => exact Finset.empty_subset _
  | some dumper =>
    dsimp only
    split
    · rfl
    · exact Finset.empty_subset _

theorem World.stopFds_subset_held (answer : Query → ℤ) (w : World) (i : Slot) {m : Module}
    (hm : (w.session i).module = some m) : w.stopFds answer i m ⊆ (w.session i).held := by
  have hdumper : w.dumperFds answer i ⊆ (w.session i).held :=
    (w.dumperFds_subset answer i).trans Finset.subset_union_right
  have hhandle : (w.session i).handleFds ⊆ (w.session i).held :=
    Finset.subset_union_right.trans Finset.subset_union_left
  have hown : (w.session i).OwnsFd → ∀ fds,
      (w.closeAll fds).sessionFds answer i ⊆ (w.session i).held := fun howns fds ↦
    ((w.closeAll fds).sessionFds_subset answer i howns).trans
      (Finset.subset_union_left.trans Finset.subset_union_left)
  have howns : m ≠ .livecapture → m ≠ .filecapture → (w.session i).OwnsFd :=
    Session.ownsFd_of_module hm
  cases m with
  | client => exact Finset.union_subset hhandle (hown (howns (by decide) (by decide)) _)
  | clientconn =>
    refine Finset.union_subset (Finset.union_subset hdumper hhandle) (hown ?_ _)
    exact howns (by decide) (by decide)
  | merger =>
    refine Finset.union_subset (Finset.union_subset hdumper hhandle) (hown ?_ _)
    exact howns (by decide) (by decide)
  | server =>
    rw [World.stopFds]
    split
    · rename_i hpos
      refine subset_trans ?_ (Finset.subset_union_left.trans Finset.subset_union_left)
      rw [Session.ownFds, if_pos ⟨howns (by decide) (by decide), hpos⟩]
    · exact Finset.empty_subset _
  | livecapture => exact hhandle
  | filecapture => exact hhandle

theorem Session.stopAs_eq (s : Session) (m : Module) (newState : SessionState) :
    s.stopAs m newState = { s.afterStop m with
      state := (s.stopAs m newState).state, intervalCounter := 0, thread := 0 } := by
  unfold Session.stopAs
  cases m <;> dsimp only <;> split <;> rfl

theorem Session.Fit.cleared (hs : s.Fit) {m : Module} (hm : s.module = some m)
    (newState : SessionState) :
    (s.stopAs m newState).module = some m ∧
      ((s.stopAs m newState).OwnsFd → (s.stopAs m newState).fd ≤ 0) ∧
      (s.stopAs m newState).pcapHandle = none ∧ (s.stopAs m newState).pcapDumper = none ∧
      (m = .client ∨ m = .merger → (s.stopAs m newState).fd = 0) := by
  rw [Session.stopAs_eq]
  cases m with
  | client => exact ⟨hm, fun _ ↦ le_refl _, rfl, (hs.shape _ hm).1, fun _ ↦ rfl⟩
  | clientconn => exact ⟨hm, fun _ ↦ le_refl _, rfl, rfl, fun _ ↦ rfl⟩
  | merger => exact ⟨hm, fun _ ↦ le_refl _, rfl, rfl, fun _ ↦ rfl⟩
  | server =>
    refine ⟨hm, fun _ ↦ ?_, (hs.shape _ hm).1, (hs.shape _ hm).2, by rintro (h | h) <;> cases h⟩
    change (if s.fd > 0 then 0 else s.fd) ≤ 0
    split
    · exact le_refl _
    · exact Int.not_lt.mp ‹_›
  | livecapture =>
    exact ⟨hm, fun h ↦ absurd hm h.1, rfl, hs.shape _ hm, by rintro (h | h) <;> cases h⟩
  | filecapture =>
    exact ⟨hm, fun h ↦ absurd hm h.2, rfl, hs.shape _ hm, by rintro (h | h) <;> cases h⟩

theorem Session.Fit.held_stopAs (hs : s.Fit) {m : Module} (hm : s.module = some m)
    (newState : SessionState) : (s.stopAs m newState).held = ∅ := by
  obtain ⟨-, hfd, hhandle, hdumper, -⟩ := hs.cleared hm newState
  exact Session.held_eq_empty hfd hhandle hdumper

theorem Session.state_stopAs_clientconn (s : Session) (newState : SessionState) :
    (s.stopAs .clientconn newState).state = .unused := by
  rw [Session.state_stopAs]
  rfl

theorem Session.Fit.stopAs (hs : s.Fit) {m : Module} (hm : s.module = some m)
    (newState : SessionState) : (s.stopAs m newState).Fit := by
  obtain ⟨hmodule, hfd, hhandle, hdumper, hzero⟩ := hs.cleared hm newState
  have hnoHandle : ∀ {φ : PcapHandle → Prop} (h : PcapHandle),
      (s.stopAs m newState).pcapHandle = some h → φ h := by
    intro φ h hh
    rw [hhandle] at hh
    cases hh
  have hnoDumper : ∀ {φ : PcapDumper → Prop} (d : PcapDumper),
      (s.stopAs m newState).pcapDumper = some d → φ d := by
    intro φ d hd
    rw [hdumper] at hd
    cases hd
  refine ⟨fun _ ↦ ⟨m, hmodule⟩, fun _ ↦ hs.held_stopAs hm newState, fun _ m' hm' ↦ ?_,
    fun m' hm' ↦ ?_⟩
  · obtain rfl := Option.some.inj (hmodule.symm.trans hm')
    cases m with
    | client => exact ⟨hzero (.inl rfl), hhandle, hdumper⟩
    | clientconn => exact ⟨hhandle, hdumper⟩
    | merger => exact ⟨hzero (.inr rfl), hhandle, hdumper⟩
    | server => trivial
    | livecapture => exact hdumper
    | filecapture => exact ⟨hhandle, hdumper⟩
  · obtain rfl := Option.some.inj (hmodule.symm.trans hm')
    cases m with
    | client => exact ⟨hdumper, hnoHandle⟩
    | clientconn =>
      exact ⟨hhandle, fun h ↦ absurd (Session.state_stopAs_clientconn s newState) h, hnoDumper⟩
    | merger => exact ⟨hhandle, fun _ ↦ hzero (.inr rfl), hnoDumper⟩
    | server => exact ⟨hhandle, hdumper⟩
    | livecapture => exact hdumper
    | filecapture => exact hdumper

end Session

/-! ## Accounts -/

/-- The ledger of the world. -/
def World.holdings (w : World) : Holdings Slot ℤ := ⟨fun i ↦ (w.session i).held, w.openFds⟩

/-- An effect keeps the sessions fit, and is a step of the ledger. -/
structure Accounts (w w' : World) : Prop where
  /-- The sessions are fit. -/
  fit : ∀ j, (w'.session j).Fit
  /-- The ledger makes a step. -/
  step : Holdings.Step w.holdings w'.holdings

/-- An effect that also puts back everything that a session gives up. -/
structure Balances (w w' : World) : Prop extends Accounts w w' where
  /-- Nothing is lost. -/
  complete : Holdings.Complete w.holdings w'.holdings

section Accounts

variable {w w' : World} {k : Slot} {fd : ℤ}

theorem complete_of_held (h : ∀ j, (w'.session j).held = (w.session j).held ∨
    (w'.session j).held ≠ ∅) : Holdings.Complete w.holdings w'.holdings := by
  intro j hnone
  rcases h j with hj | hj
  · have hj : (w.session j).held = ∅ := hj.symm.trans hnone
    change Disjoint (w.session j).held _
    rw [hj]
    exact Finset.disjoint_empty_left _
  · exact absurd hnone hj

/-- An effect that concerns one slot. -/
theorem balances_keep (hfit : ∀ j, (w.session j).Fit)
    (hothers : ∀ j, j ≠ k → (w.session j).Alike (w'.session j)) (hk : (w'.session k).Fit)
    (hheld : (w'.session k).held = (w.session k).held) (hopen : w'.openFds = w.openFds) :
    Balances w w' := by
  have hall : ∀ j, (w'.session j).held = (w.session j).held := by
    intro j
    by_cases hj : j = k
    · exact hj ▸ hheld
    · exact (hothers j hj).held
  refine ⟨⟨fun j ↦ ?_, .keep hall hopen⟩, complete_of_held fun j ↦ .inl (hall j)⟩
  by_cases hj : j = k
  · exact hj ▸ hk
  · exact (hothers j hj).fit (hfit j)

theorem balances_alike (hfit : ∀ j, (w.session j).Fit)
    (hothers : ∀ j, (w.session j).Alike (w'.session j)) (hopen : w'.openFds = w.openFds) :
    Balances w w' :=
  ⟨⟨fun j ↦ (hothers j).fit (hfit j), .keep (fun j ↦ (hothers j).held) hopen⟩,
    complete_of_held fun j ↦ .inl (hothers j).held⟩

theorem balances_acquire (hfit : ∀ j, (w.session j).Fit)
    (hothers : ∀ j, j ≠ k → (w.session j).Alike (w'.session j)) (hk : (w'.session k).Fit)
    (hnone : (w.session k).held = ∅) (hfd : w.grants fd = true) (hheld : (w'.session k).held = {fd})
    (hopen : w'.openFds = insert fd w.openFds) : Balances w w' := by
  refine ⟨⟨fun j ↦ ?_, .acquire k fd hnone (of_decide_eq_true hfd).2 hheld
    (fun j hj ↦ (hothers j hj).held) hopen⟩, complete_of_held fun j ↦ ?_⟩
  · by_cases hj : j = k
    · exact hj ▸ hk
    · exact (hothers j hj).fit (hfit j)
  · by_cases hj : j = k
    · rw [hj, hheld]
      exact .inr (Finset.singleton_ne_empty fd)
    · exact .inl (hothers j hj).held

theorem accounts_release (hfit : ∀ j, (w.session j).Fit)
    (hothers : ∀ j, j ≠ k → (w.session j).Alike (w'.session j)) (hk : (w'.session k).Fit)
    {fds : Finset ℤ} (hsub : fds ⊆ (w.session k).held) (hheld : (w'.session k).held = ∅)
    (hopen : w'.openFds = w.openFds \ fds) : Accounts w w' := by
  refine ⟨fun j ↦ ?_, .release k fds hsub hheld (fun j hj ↦ (hothers j hj).held) hopen⟩
  by_cases hj : j = k
  · exact hj ▸ hk
  · exact (hothers j hj).fit (hfit j)

/-- A session gives up what it holds, and all of it is closed. -/
theorem complete_release (hothers : ∀ j, j ≠ k → (w'.session j).held = (w.session j).held)
    {fds : Finset ℤ} (hsub : (w.session k).held ⊆ fds) (hopen : w'.openFds = w.openFds \ fds) :
    Holdings.Complete w.holdings w'.holdings := by
  intro j hnone
  by_cases hj : j = k
  · subst hj
    change Disjoint (w.session j).held w'.openFds
    rw [hopen]
    exact Finset.disjoint_of_subset_left hsub Finset.disjoint_sdiff
  · have hj : (w.session j).held = ∅ := (hothers j hj).symm.trans hnone
    change Disjoint (w.session j).held _
    rw [hj]
    exact Finset.disjoint_empty_left _

theorem alike_modifySession_of_ne (w : World) {j : Slot} (hj : j ≠ k) (f : Session → Session) :
    (w.session j).Alike ((w.modifySession k f).session j) := by
  rw [World.session_modifySession_of_ne w hj]
  exact .refl _

theorem alike_of_tends (h : Tends w w') (j : Slot) : (w.session j).Alike (w'.session j) := by
  rw [h.session j]
  exact ⟨rfl, rfl, rfl, rfl, rfl⟩

theorem balances_place {s : Session} (hfit : ∀ j, (w.session j).Fit)
    (hk : (w.session k).state = .unused) (hs : s.Fit) (hheld : s.held = ∅) :
    Balances w (w.place k s) := by
  refine balances_keep hfit (fun j hj ↦ alike_modifySession_of_ne w hj _) ?_ ?_ rfl
  · rw [World.place, World.session_modifySession_self]
    exact hs
  · rw [World.place, World.session_modifySession_self, (hfit k).unused hk, hheld]

theorem balances_place_openFd {s : Session} {d : Descriptor} (hfit : ∀ j, (w.session j).Fit)
    (hk : (w.session k).state = .unused) (hfd : w.grants fd = true) (hs : s.Fit)
    (hheld : s.held = {fd}) : Balances w ((w.openFd fd d).place k s) := by
  refine balances_acquire hfit (fun j hj ↦ alike_modifySession_of_ne (w.openFd fd d) hj _) ?_
    ((hfit k).unused hk) hfd ?_ rfl
  · rw [World.place, World.session_modifySession_self]
    exact hs
  · rw [World.place, World.session_modifySession_self, hheld]

end Accounts

section Opened

variable {k : Slot} {fd : ℤ}

/-- A new session of a module that acquires nothing when it is opened. -/
theorem fit_opened {s : Session} {m : Module} (hm : s.module = some m)
    (hunused : m = .clientconn → s.state = .unused) (hfd : s.fd = 0)
    (hhandle : s.pcapHandle = none) (hdumper : s.pcapDumper = none) : s.Fit ∧ s.held = ∅ := by
  have hheld : s.held = ∅ := Session.held_eq_empty (fun _ ↦ le_of_eq hfd) hhandle hdumper
  refine ⟨⟨fun _ ↦ ⟨m, hm⟩, fun _ ↦ hheld, fun _ m' _ ↦ ?_, fun m' hm' ↦ ?_⟩, hheld⟩
  · cases m' with
    | client => exact ⟨hfd, hhandle, hdumper⟩
    | clientconn => exact ⟨hhandle, hdumper⟩
    | merger => exact ⟨hfd, hhandle, hdumper⟩
    | server => trivial
    | livecapture => exact hdumper
    | filecapture => exact ⟨hhandle, hdumper⟩
  · obtain rfl := Option.some.inj (hm.symm.trans hm')
    cases m with
    | client => exact ⟨hdumper, by simp [hhandle]⟩
    | clientconn => exact ⟨hhandle, fun h ↦ absurd (hunused rfl) h, by simp [hdumper]⟩
    | merger => exact ⟨hhandle, fun _ ↦ hfd, by simp [hdumper]⟩
    | server => exact ⟨hhandle, hdumper⟩
    | livecapture => exact hdumper
    | filecapture => exact hdumper

theorem fit_opened_fd {s : Session} {m : Module} (hm : s.module = some m)
    (hmodule : m = .server ∨ m = .clientconn) (hstate : s.state = .start) (hfd : 0 < s.fd)
    (hhandle : s.pcapHandle = none) (hdumper : s.pcapDumper = none) :
    s.Fit ∧ s.held = {s.fd} := by
  refine ⟨⟨fun _ ↦ ⟨m, hm⟩, fun h ↦ ?_, fun _ m' hm' ↦ ?_, fun m' hm' ↦ ?_⟩, ?_⟩
  · rw [hstate] at h
    cases h
  · obtain rfl := Option.some.inj (hm.symm.trans hm')
    rcases hmodule with rfl | rfl
    · trivial
    · exact ⟨hhandle, hdumper⟩
  · obtain rfl := Option.some.inj (hm.symm.trans hm')
    rcases hmodule with rfl | rfl
    · exact ⟨hhandle, hdumper⟩
    · exact ⟨hhandle, fun _ ↦ hfd, by simp [hdumper]⟩
  · refine Session.held_of_fd ?_ hfd (by simp [hhandle]) (by simp [hdumper])
    rcases hmodule with rfl | rfl <;> exact ⟨by rw [hm]; decide, by rw [hm]; decide⟩

theorem fit_opened_livecapture {s : Session} (hm : s.module = some .livecapture)
    (hstate : s.state = .start) (hhandle : s.pcapHandle = some ⟨fd⟩)
    (hdumper : s.pcapDumper = none) : s.Fit ∧ s.held = {fd} := by
  refine ⟨⟨fun _ ↦ ⟨_, hm⟩, fun h ↦ ?_, fun _ m' hm' ↦ ?_, fun m' hm' ↦ ?_⟩,
    Session.held_of_handle (fun h ↦ h.1 hm) hhandle hdumper⟩
  · rw [hstate] at h
    cases h
  · obtain rfl := Option.some.inj (hm.symm.trans hm')
    exact hdumper
  · obtain rfl := Option.some.inj (hm.symm.trans hm')
    exact hdumper

end Opened

section Effects

variable {w w' : World} {i : Slot} {m : Module}

theorem OpenEffect.balances (h : OpenEffect w w') (hfit : ∀ j, (w.session j).Fit) :
    Balances w w' := by
  cases h with
  | full => exact balances_alike hfit (fun _ ↦ .refl _) rfl
  | refused k m hk =>
    obtain ⟨hs, hheld⟩ := fit_opened (s := { Session.opened m k with state := .unused }) rfl
      (fun _ ↦ rfl) rfl rfl rfl
    exact balances_place hfit hk hs hheld
  | plain k s hk hs =>
    obtain ⟨hs, hheld⟩ : s.Fit ∧ s.held = ∅ := by
      rcases hs with hs | hs | hs <;> rw [hs]
      · exact fit_opened (m := .client) rfl nofun rfl rfl rfl
      · exact fit_opened (m := .merger) rfl nofun rfl rfl rfl
      · exact fit_opened (m := .filecapture) rfl nofun rfl rfl rfl
    exact balances_place hfit hk hs hheld
  | server k fd hk hfd =>
    obtain ⟨hs, hheld⟩ := fit_opened_fd (s := { Session.opened .server k with fd := fd }) rfl
      (.inl rfl) rfl (of_decide_eq_true hfd).1 rfl rfl
    exact balances_place_openFd hfit hk hfd hs hheld
  | livecapture k fd selectable hk hfd =>
    obtain ⟨hs, hheld⟩ := fit_opened_livecapture (s := { Session.opened .livecapture k with
      pcapHandle := some ⟨fd⟩, fd := if selectable = 0 then fd else -1, superviseFd := true }) rfl
      rfl rfl rfl
    exact balances_place_openFd hfit hk hfd hs hheld

theorem AcceptEffect.balances (h : AcceptEffect w w') (hfit : ∀ j, (w.session j).Fit) :
    Balances w w' := by
  cases h with
  | nothing => exact balances_alike hfit (fun _ ↦ .refl _) rfl
  | rejected fd hfd =>
    obtain ⟨hsession, hopen⟩ := (w.openFd fd .connection).initClientconnlist_session
    refine balances_alike hfit (fun j ↦ ?_) ?_
    · rw [World.close_session, hsession]
      exact .refl _
    · rw [World.close, hopen]
      exact Finset.erase_insert (of_decide_eq_true hfd).2
  | accepted k fd hk hfd =>
    obtain ⟨hsession, hopen⟩ := (w.openFd fd .connection).initClientconnlist_session
    obtain ⟨hs, hheld⟩ := fit_opened_fd (s := { Session.opened .clientconn k with
      fd := fd, superviseFd := true }) rfl (.inr rfl) rfl (of_decide_eq_true hfd).1 rfl rfl
    refine balances_acquire (k := k) hfit (fun j hj ↦ ?_) ?_ ((hfit k).unused hk) hfd ?_ hopen
    · rw [World.place, World.session_modifySession_of_ne _ hj, hsession]
      exact .refl _
    · rw [World.place, World.session_modifySession_self]
      exact hs
    · rw [World.place, World.session_modifySession_self]
      exact hheld

/-- The session has been started and has module `m`. -/
structure World.Started (w : World) (i : Slot) (m : Module) : Prop where
  /-- The slot is in use. -/
  used : (w.session i).state ≠ .unused
  /-- The session is not to be started. -/
  notStart : (w.session i).state ≠ .start
  /-- The module. -/
  module : (w.session i).module = some m

theorem balances_modifySession {f : Session → Session} (hfit : ∀ j, (w.session j).Fit)
    (hw : w.Started i m) (hmodule : (f (w.session i)).module = (w.session i).module)
    (hstate : (f (w.session i)).state = (w.session i).state) (hshape : m.Shape (f (w.session i)))
    (hheld : (f (w.session i)).held = (w.session i).held) : Balances w (w.modifySession i f) := by
  refine balances_keep (k := i) hfit (fun j hj ↦ alike_modifySession_of_ne w hj _) ?_ ?_ rfl
  · rw [World.session_modifySession_self]
    exact Session.fit_of_shape (hmodule.trans hw.module) (hstate ▸ hw.used) (hstate ▸ hw.notStart)
      hshape
  · rw [World.session_modifySession_self, hheld]

theorem balances_openFd {v : World} {f : Session → Session} {fd : ℤ}
    (hfit : ∀ j, (w.session j).Fit) (hw : w.Started i m) (hfd : w.grants fd = true)
    (hsession : v.session = w.session) (hopen : v.openFds = insert fd w.openFds)
    (hmodule : (f (w.session i)).module = (w.session i).module)
    (hstate : (f (w.session i)).state = (w.session i).state) (hshape : m.Shape (f (w.session i)))
    (hnone : (w.session i).held = ∅) (hheld : (f (w.session i)).held = {fd}) :
    Balances w (v.modifySession i f) := by
  refine balances_acquire (k := i) hfit (fun j hj ↦ ?_) ?_ hnone hfd ?_ hopen
  · rw [World.session_modifySession_of_ne _ hj, hsession]
    exact .refl _
  · rw [World.session_modifySession_self, hsession]
    exact Session.fit_of_shape (hmodule.trans hw.module) (hstate ▸ hw.used) (hstate ▸ hw.notStart)
      hshape
  · rw [World.session_modifySession_self, hsession, hheld]

theorem balances_closeHandle (hfit : ∀ j, (w.session j).Fit) (hw : w.Started i m)
    {handle : PcapHandle} (hcapture : m = .livecapture ∨ m = .filecapture)
    (hhandle : (w.session i).pcapHandle = some handle) : Balances w (w.closeHandle i handle) := by
  have hnot : ¬ (w.session i).OwnsFd := by
    rw [Session.OwnsFd, hw.module]
    rcases hcapture with rfl | rfl <;> simp
  have hdumper : (w.session i).pcapDumper = none := by
    have hshape := (hfit i).shape m hw.module
    rcases hcapture with rfl | rfl <;> exact hshape
  have hheld := Session.held_of_handle hnot hhandle hdumper
  have hopen : (w.closeHandle i handle).openFds = w.openFds \ {handle.fd} := by
    rw [Finset.sdiff_singleton_eq_erase]
    rfl
  have hothers : ∀ j, j ≠ i → (w.session j).Alike ((w.closeHandle i handle).session j) :=
    fun j hj ↦ alike_modifySession_of_ne (w.close handle.fd) hj _
  refine ⟨accounts_release (k := i) hfit hothers ?_ hheld.ge ?_ hopen,
    complete_release (k := i) (fun j hj ↦ (hothers j hj).held) hheld.le hopen⟩
  · rw [World.closeHandle, World.session_modifySession_self]
    refine Session.fit_of_shape (m := m) hw.module hw.used hw.notStart ?_
    rcases hcapture with rfl | rfl <;> exact hdumper
  · rw [World.closeHandle, World.session_modifySession_self]
    exact Session.held_eq_empty (fun h ↦ absurd h hnot) rfl hdumper

/-- A statement of a runner, for a session that has been started. -/
theorem RunnerStep.balances (h : RunnerStep i m w w') (hfit : ∀ j, (w.session j).Fit)
    (hw : w.Started i m) : Balances w w' := by
  have hm := hw.module
  have howns : m ≠ .livecapture → m ≠ .filecapture → (w.session i).OwnsFd :=
    Session.ownsFd_of_module hm
  have hshape := (hfit i).shape m hm
  cases h with
  | pauses => exact balances_alike hfit (fun _ ↦ .refl _) rfl
  | writes _ newState hnew =>
    refine balances_keep (k := i) hfit (fun j hj ↦ alike_modifySession_of_ne w hj _) ?_ ?_ rfl
    · rw [World.session_modifySession_self]
      refine (hfit i).setState hw.used ?_
      rcases hnew with rfl | rfl <;> exact ⟨by decide, by decide⟩
    · rw [World.session_modifySession_self]
      rfl
  | tends h =>
    refine balances_alike hfit (alike_of_tends h) ?_
    rw [h.rest]
  -- what is granted was not held, and the session holds nothing else yet
  | socket _ fd hfd hnone hhandle hdumper =>
    refine balances_openFd hfit hw hfd rfl rfl rfl rfl ⟨hdumper, by simp [hhandle]⟩
      (Session.held_eq_empty (fun _ ↦ le_of_eq hnone) hhandle hdumper) ?_
    exact Session.held_of_fd (s := { w.session i with fd := fd }) (howns nofun nofun)
      (of_decide_eq_true hfd).1 (by simp [hhandle]) (by simp [hdumper])
  | socketFailed _ hnone hhandle hdumper =>
    refine balances_modifySession hfit hw rfl rfl ⟨hdumper, by simp [hhandle]⟩ ?_
    rw [Session.held_eq_empty (fun _ ↦ le_of_eq hnone) hhandle hdumper]
    exact Session.held_eq_empty (s := { w.session i with fd := -1 })
      (fun _ ↦ (Int.negSucc_lt_zero 0).le) hhandle hdumper
  -- the handle and the dumper share the session's descriptor
  | handle _ hfd hhandle hdumper =>
    refine balances_modifySession hfit hw rfl rfl ⟨hdumper, ?_⟩ ?_
    · rintro h ⟨⟩
      exact ⟨rfl, hfd⟩
    · rw [Session.held_of_fd (howns nofun nofun) hfd (by simp [hhandle]) (by simp [hdumper])]
      exact Session.held_of_fd (s := { w.session i with pcapHandle := some ⟨(w.session i).fd⟩ })
        (howns nofun nofun) hfd (by simp) (by simp [hdumper])
  | dumper _ hhandle hdumper =>
    have hfd := hshape.2.1 hw.used
    have hheld := Session.held_of_fd (howns nofun nofun) hfd (by simp [hhandle]) (by simp [hdumper])
    -- the count of streams has no part in the balance
    have hbalances := balances_modifySession (w := { w with nextDumper := w.nextDumper + 1 })
      (f := ({ · with pcapDumper := some ⟨w.nextDumper, (w.session i).fd⟩ })) hfit
      ⟨hw.used, hw.notStart, hm⟩ rfl rfl ⟨hhandle, fun _ ↦ hfd, ?_⟩ ?_
    · exact ⟨⟨hbalances.fit, hbalances.step⟩, hbalances.complete⟩
    · rintro d ⟨⟩
      exact ⟨rfl, hfd⟩
    · refine Eq.trans ?_ hheld.symm
      exact Session.held_of_fd
        (s := { w.session i with pcapDumper := some ⟨w.nextDumper, (w.session i).fd⟩ })
        (howns nofun nofun) hfd (by simp [hhandle]) (by simp)
  | lists => exact balances_alike hfit (fun _ ↦ .refl _) rfl
  | dumpFile _ fd hfd hnone hhandle hdumper =>
    refine balances_openFd hfit hw hfd (v := { w.openFd fd .file with nextDumper := _ }) rfl rfl rfl
      rfl ⟨hhandle, by simp, fun _ _ ↦ .inl hnone⟩
      (Session.held_eq_empty (fun _ ↦ le_of_eq hnone) hhandle hdumper) ?_
    exact Session.held_of_dumper (s := { w.session i with pcapDumper := some ⟨_, fd⟩ }) hhandle rfl
      (.inl hnone)
  | dumpFileFd _ dumper hnone hhandle hdumper =>
    refine balances_modifySession hfit hw rfl rfl ⟨hhandle, by simp [hdumper], ?_⟩ ?_
    · intro d hd
      exact .inr (congrArg PcapDumper.fd (Option.some.inj (hdumper.symm.trans hd)))
    · rw [Session.held_of_dumper hhandle hdumper (.inl hnone)]
      exact Session.held_of_dumper (s := { w.session i with fd := dumper.fd }) hhandle hdumper
        (.inr rfl)
  | accepts h => exact h.balances hfit
  | closesHandle _ handle hcapture hhandle =>
    exact balances_closeHandle hfit hw hcapture hhandle
  | opensFile _ fd hfd hhandle hdumper =>
    have hnot : ¬ (w.session i).OwnsFd := fun h ↦ h.2 hm
    refine balances_openFd hfit hw hfd rfl rfl rfl rfl hdumper
      (Session.held_eq_empty (fun h ↦ absurd h hnot) hhandle hdumper) ?_
    exact Session.held_of_handle (s := { w.session i with pcapHandle := some ⟨fd⟩ }) hnot rfl
      hdumper
  | notes _ f hf =>
    refine balances_modifySession hfit hw ?_ ?_ ?_ ?_
    · rw [hf]
    · rw [hf]
    · rw [hf]
      exact hshape
    · -- a file capture owns the handle's descriptor only, whatever `fd` is set to
      have hnot : ¬ (w.session i).OwnsFd := fun h ↦ h.2 hm
      have hnot' : ¬ (f (w.session i)).OwnsFd := by
        rw [hf]
        exact hnot
      rw [Session.held, Session.held, Session.ownFds, Session.ownFds, if_neg fun h ↦ hnot' h.1,
        if_neg fun h ↦ hnot h.1, hf]
      rfl

theorem accounts_stopAs {answer : Query → ℤ} (hfit : ∀ j, (w.session j).Fit)
    (hm : (w.session i).module = some m) (newState : SessionState) :
    Accounts w (w.stopAs answer i m newState) := by
  refine accounts_release (k := i) hfit (fun j hj ↦ ?_) ?_ (w.stopFds_subset_held answer i hm) ?_ ?_
  · rw [World.session_stopAs_of_ne _ _ _ _ _ hj]
    exact .refl _
  · rw [World.session_stopAs_self]
    exact (hfit i).stopAs hm newState
  · rw [World.session_stopAs_self]
    exact (hfit i).held_stopAs hm newState
  · rw [World.stopAs_rest]

/-- A visit loses nothing, unless it stops the session. -/
theorem VisitEffect.balances {answer : Query → ℤ} (h : VisitEffect answer i w w')
    (hfit : ∀ j, (w.session j).Fit) : Balances w w' ∨ ∃ m newState,
      w.Stops answer i ∧ (w.session i).module = some m ∧ w' = w.stopAs answer i m newState := by
  have hne : ∀ {w : World} {f : Session → Session} (j : Slot), j ≠ i →
      (w.session j).Alike ((w.modifySession i f).session j) := fun j hj ↦
    alike_modifySession_of_ne _ hj _
  -- the order that starts the session was there before the visit
  have hstarting : w.orderedState answer i = .start →
      Session.Fit { w.session i with state := .starting } := by
    intro h
    have hstate := World.orderedState_eq_state (by rw [h]; decide) (by rw [h]; decide)
    exact (hfit i).setState (by rw [← hstate, h]; decide) ⟨by decide, by decide⟩
  cases h with
  | skipped => exact .inl <| balances_alike hfit (fun _ ↦ .refl _) rfl
  | tended _ _ htends =>
    refine .inl <| balances_alike hfit (alike_of_tends htends) ?_
    rw [htends.rest]
  | started m h hm hcreate =>
    have hself : ((w.startOrdered i).createThread i m).session i = { w.session i with
        state := .starting, intervalCounter := 0, thread := w.nextThread } := by
      rw [World.session_createThread_self, World.session_startOrdered_self]
      rfl
    refine .inl <| balances_keep (k := i) hfit (fun j hj ↦ ?_) ?_ ?_ rfl
    · rw [World.session_createThread_of_ne _ _ hj, World.session_startOrdered_of_ne _ _ hj]
      exact .refl _
    · have halike : Session.Alike { w.session i with state := .starting }
          (((w.startOrdered i).createThread i m).session i) := by
        rw [hself]
        exact ⟨rfl, rfl, rfl, rfl, rfl⟩
      exact halike.fit (hstarting h)
    · rw [hself]
      rfl
  | startFailed m h hm hcreate =>
    refine .inl <| balances_keep (k := i) hfit hne ?_ ?_ rfl
    · have halike : Session.Alike { w.session i with state := .starting }
          ((w.startOrdered i).session i) := by
        rw [World.session_startOrdered_self]
        exact ⟨rfl, rfl, rfl, rfl, rfl⟩
      exact halike.fit (hstarting h)
    · rw [World.session_startOrdered_self]
      rfl
  | waited h hcount =>
    refine .inl <| balances_alike hfit (fun j ↦ ?_) rfl
    by_cases hj : j = i
    · rw [hj, World.session_modifySession_self]
      exact ⟨rfl, rfl, rfl, rfl, rfl⟩
    · exact hne j hj
  | timedOut h hcount =>
    have hstate := World.orderedState_eq_state (by rw [h]; decide) (by rw [h]; decide)
    refine .inl <| balances_keep (k := i) hfit hne ?_ ?_ rfl
    · rw [World.setState, World.session_modifySession_self]
      exact (hfit i).setState (by rw [← hstate, h]; decide) ⟨by decide, by decide⟩
    · rw [World.setState, World.session_modifySession_self]
      rfl
  | stopped m newState h hused hm =>
    exact .inr ⟨m, newState, ⟨hused, h.imp And.left And.left⟩, hm, rfl⟩

theorem VisitEffect.accounts {answer : Query → ℤ} (h : VisitEffect answer i w w')
    (hfit : ∀ j, (w.session j).Fit) : Accounts w w' := by
  rcases h.balances hfit with h | ⟨m, newState, -, hm, rfl⟩
  · exact h.toAccounts
  · exact accounts_stopAs hfit hm newState

end Effects

end DistributorMerger
