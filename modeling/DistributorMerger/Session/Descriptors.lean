import DistributorMerger.Session.Reachable

/-!
# Descriptors over restarts

A stopper that has to look at a descriptor before it closes it leaves the descriptor open when the
look reports anything. The session forgets the descriptor all the same, and asks for a restart,
which opens another one.

As long as every stop finds open what it has to look at, nothing is lost, and there are no more
open descriptors than slots in use.
-/

namespace DistributorMerger

/-- The looks that decide whether the stopper of module `m` closes what session `s` holds find it
open. A capture handle is closed without a look, and so is the socket of a server. -/
def Session.FoundOpen (answer : Query → ℤ) (i : Slot) (s : Session) : Module → Prop
  | .client => s.pcapHandle ≠ none ∨ s.fd ≤ 0 ∨ answer (.pollStop i) = 0
  | .clientconn | .merger =>
    s.pcapDumper ≠ none ∧ answer (.pollDumper i) = 0 ∧ answer (.pollDumperAgain i) = 0 ∨
      0 < s.fd ∧ answer (.pollStop i) = 0 ∨ s.pcapDumper = none ∧ s.fd ≤ 0
  | .server | .livecapture | .filecapture => True

/-- A visit that stops a session finds open what it has to look at. -/
def System.StopsFindOpen (c : System) : Event → Prop
  | .visits i answer => c.world.Stops answer i → ∀ m, (c.world.session i).module = some m →
      (c.world.session i).FoundOpen answer i m
  | _ => True

section Stop

variable {answer : Query → ℤ} {w : World} {i : Slot} {m : Module}

theorem World.sessionFds_of_open {fds : Finset ℤ} (hpos : 0 < (w.session i).fd)
    (hopen : (w.session i).fd ∈ w.openFds) (hfds : (w.session i).fd ∉ fds)
    (hlook : answer (.pollStop i) = 0) :
    (w.session i).fd ∈ (w.closeAll fds).sessionFds answer i := by
  have hseems : (w.closeAll fds).seemsOpen (answer (.pollStop i)) (w.session i).fd :=
    .inr ⟨Finset.mem_sdiff.mpr ⟨hopen, hfds⟩, hlook⟩
  rw [World.sessionFds, World.closeAll_session, if_pos ⟨hpos, hseems⟩]
  exact Finset.mem_singleton_self _

theorem World.mem_closeDumperHandleFd {fd : ℤ} (hopen : fd ∈ w.openFds)
    (hfound : (∃ dumper, (w.session i).pcapDumper = some dumper ∧ dumper.fd = fd ∧
        answer (.pollDumper i) = 0 ∧ answer (.pollDumperAgain i) = 0) ∨
      0 < (w.session i).fd ∧ (w.session i).fd = fd ∧ answer (.pollStop i) = 0) :
    fd ∈ w.dumperFds answer i ∪ (w.session i).handleFds
      ∪ (w.closeAll (w.dumperFds answer i ∪ (w.session i).handleFds)).sessionFds answer i := by
  by_cases hclosed : fd ∈ w.dumperFds answer i ∪ (w.session i).handleFds
  · exact Finset.mem_union_left _ hclosed
  · rcases hfound with ⟨dumper, hdumper, rfl, hlook, hlook'⟩ | ⟨hpos, rfl, hlook⟩
    · refine absurd (Finset.mem_union_left _ ?_) hclosed
      rw [World.dumperFds, hdumper]
      dsimp only
      rw [if_pos ⟨.inr ⟨hopen, hlook⟩, .inr ⟨hopen, hlook'⟩⟩]
      exact Finset.mem_singleton_self _
    · exact Finset.mem_union_right _ (World.sessionFds_of_open hpos hopen hclosed hlook)

theorem World.held_subset_stopFds_client (hfit : (w.session i).Fit)
    (hopen : (w.session i).held ⊆ w.openFds) (hm : (w.session i).module = some .client)
    (hfound : (w.session i).FoundOpen answer i .client) :
    (w.session i).held ⊆ w.stopFds answer i .client := by
  have howns : (w.session i).OwnsFd := Session.ownsFd_of_module hm nofun nofun
  obtain ⟨hdumper, hhandle⟩ := hfit.shape .client hm
  intro fd hfd
  cases h : (w.session i).pcapHandle with
  | some handle =>
    obtain ⟨heq, hpos⟩ := hhandle handle h
    have hheld : (w.session i).held = {(w.session i).fd} := by
      refine Session.held_of_fd howns hpos ?_ (by simp [hdumper])
      exact fun handle h ↦ (hhandle handle h).1
    rw [hheld, Finset.mem_singleton] at hfd
    refine Finset.mem_union_left _ ?_
    rw [Session.handleFds, h, hfd, ← heq]
    exact Finset.mem_singleton_self _
  | none =>
    by_cases hpos : 0 < (w.session i).fd
    · have hheld : (w.session i).held = {(w.session i).fd} :=
        Session.held_of_fd howns hpos (by simp [h]) (by simp [hdumper])
      have hfd' : fd ∈ w.openFds := hopen hfd
      rw [hheld, Finset.mem_singleton] at hfd
      subst hfd
      have hlook : answer (.pollStop i) = 0 := by
        rcases hfound with hfound | hfound | hfound
        · exact absurd h hfound
        · exact absurd hpos (Int.not_lt.mpr hfound)
        · exact hfound
      refine Finset.mem_union_right _ (World.sessionFds_of_open hpos hfd' ?_ hlook)
      rw [Session.handleFds, h]
      exact Finset.notMem_empty _
    · rw [Session.held_eq_empty (fun _ ↦ Int.not_lt.mp hpos) h hdumper] at hfd
      exact absurd hfd (Finset.notMem_empty fd)

/-- The stop of a client connection looks at its dumper, or at its descriptor. -/
theorem World.held_subset_stopFds_clientconn (hfit : (w.session i).Fit)
    (hused : (w.session i).state ≠ .unused) (hopen : (w.session i).held ⊆ w.openFds)
    (hm : (w.session i).module = some .clientconn)
    (hfound : (w.session i).FoundOpen answer i .clientconn) :
    (w.session i).held ⊆ w.stopFds answer i .clientconn := by
  obtain ⟨hhandle, hpos, hdumper⟩ := hfit.shape .clientconn hm
  have hheld : (w.session i).held = {(w.session i).fd} := by
    refine Session.held_of_fd (Session.ownsFd_of_module hm nofun nofun) (hpos hused)
      (by simp [hhandle]) ?_
    exact fun dumper h ↦ (hdumper dumper h).1
  intro fd hfd
  have hfd' : fd ∈ w.openFds := hopen hfd
  rw [hheld, Finset.mem_singleton] at hfd
  refine World.mem_closeDumperHandleFd hfd' ?_
  rcases hfound with ⟨hsome, hlook, hlook'⟩ | ⟨-, hlook⟩ | ⟨-, hzero⟩
  · obtain ⟨dumper, h⟩ := Option.ne_none_iff_exists'.mp hsome
    exact .inl ⟨dumper, h, (hdumper dumper h).1.trans hfd.symm, hlook, hlook'⟩
  · exact .inr ⟨hpos hused, hfd.symm, hlook⟩
  · exact absurd (hpos hused) (Int.not_lt.mpr hzero)

theorem World.held_subset_stopFds_merger (hfit : (w.session i).Fit)
    (hopen : (w.session i).held ⊆ w.openFds) (hm : (w.session i).module = some .merger)
    (hfound : (w.session i).FoundOpen answer i .merger) :
    (w.session i).held ⊆ w.stopFds answer i .merger := by
  obtain ⟨hhandle, hzero, hdumper⟩ := hfit.shape .merger hm
  intro fd hfd
  cases h : (w.session i).pcapDumper with
  | none =>
    rw [Session.held_eq_empty (fun _ ↦ (hzero h).le) hhandle h] at hfd
    exact absurd hfd (Finset.notMem_empty fd)
  | some dumper =>
    have hfd' : fd ∈ w.openFds := hopen hfd
    rw [Session.held_of_dumper hhandle h (hdumper dumper h), Finset.mem_singleton] at hfd
    refine World.mem_closeDumperHandleFd hfd' ?_
    rcases hfound with ⟨-, hlook, hlook'⟩ | ⟨hpos, hlook⟩ | ⟨hnone, -⟩
    · exact .inl ⟨dumper, h, hfd.symm, hlook, hlook'⟩
    · refine .inr ⟨hpos, ?_, hlook⟩
      rcases hdumper dumper h with heq | heq
      · exact absurd heq hpos.ne'
      · exact heq.trans hfd.symm
    · rw [h] at hnone
      cases hnone

theorem World.held_subset_stopFds_capture (hfit : (w.session i).Fit)
    (hm : (w.session i).module = some m) (hcapture : m = .livecapture ∨ m = .filecapture) :
    (w.session i).held ⊆ w.stopFds answer i m := by
  have hshape := hfit.shape m hm
  rcases hcapture with rfl | rfl
  · have hnot : ¬ (w.session i).OwnsFd := fun h ↦ h.1 hm
    rw [Session.held, Session.ownFds, if_neg (fun h ↦ hnot h.1), Session.dumperFds, hshape]
    simp [World.stopFds]
  · have hnot : ¬ (w.session i).OwnsFd := fun h ↦ h.2 hm
    rw [Session.held, Session.ownFds, if_neg (fun h ↦ hnot h.1), Session.dumperFds, hshape]
    simp [World.stopFds]

/-- A stop that finds open what it looks at closes all that the session holds. -/
theorem World.held_subset_stopFds (hfit : (w.session i).Fit) (hused : (w.session i).state ≠ .unused)
    (hopen : (w.session i).held ⊆ w.openFds) (hm : (w.session i).module = some m)
    (hfound : (w.session i).FoundOpen answer i m) :
    (w.session i).held ⊆ w.stopFds answer i m := by
  cases m with
  | client => exact World.held_subset_stopFds_client hfit hopen hm hfound
  | clientconn => exact World.held_subset_stopFds_clientconn hfit hused hopen hm hfound
  | merger => exact World.held_subset_stopFds_merger hfit hopen hm hfound
  | server =>
    obtain ⟨hhandle, hdumper⟩ := hfit.shape .server hm
    rw [World.stopFds]
    split
    · rename_i hpos
      rw [Session.held_of_fd (Session.ownsFd_of_module hm (by decide) (by decide)) hpos
        (by simp [hhandle]) (by simp [hdumper])]
    · rename_i hpos
      rw [Session.held_eq_empty (fun _ ↦ Int.not_lt.mp hpos) hhandle hdumper]
  | livecapture => exact World.held_subset_stopFds_capture hfit hm (.inl rfl)
  | filecapture => exact World.held_subset_stopFds_capture hfit hm (.inr rfl)

end Stop

/-! ## Runs -/

section Runs

variable {c c' : System} {e : Event}

theorem System.Sound.complete (h : c.Sound) (hfound : c.StopsFindOpen e)
    (hstep : c.step e = some c') :
    Holdings.Complete c.world.holdings c'.world.holdings := by
  have heffect := (h.step hstep).1
  generalize c'.world = w' at heffect
  cases heffect with
  | opens heffect => exact (heffect.balances h.fit).complete
  | runs ht hrunner => exact (hrunner.balances h.fit (h.started ht)).complete
  | captures hhandles =>
    refine complete_of_held fun j ↦ .inl ?_
    rw [hhandles.session j]
    rfl
  | closes => exact complete_of_held fun _ ↦ .inl rfl
  | @visits i answer w' heffect =>
    rcases heffect.balances h.fit with h' | ⟨m, newState, hstops, hm, rfl⟩
    · exact h'.complete
    · refine complete_release (k := i) (fun j hj ↦ ?_) (World.held_subset_stopFds (h.fit i) hstops.1
        (h.ledger.subset i) hm (hfound hstops m hm)) ?_
      · rw [World.session_stopAs_of_ne _ _ _ _ _ hj]
      · rw [World.stopAs_rest]

end Runs

end DistributorMerger
