import DistributorMerger.Session.Reachable

/-!
# What a runner finds when it is started

The runner of a server accepts on a socket, and the runner of a live capture reads from a handle,
that only the open function has acquired. Their stoppers release it and ask for a restart like the
others, so that the second start finds nothing.

As long as no such session is terminated, which is what a visit does to it unless session handling
is shutting down, every runner that is started finds what it needs.
-/

namespace DistributorMerger

/-- What the runner of module `m` uses without opening it is there. -/
def World.Equipped (w : World) (i : Slot) : Module → Prop
  | .server => 0 < (w.session i).fd ∧ (w.session i).fd ∈ w.openFds ∧
    w.descriptor (w.session i).fd = .listening
  | .livecapture => ∃ handle, (w.session i).pcapHandle = some handle ∧ handle.fd ∈ w.openFds
  | _ => True

/-- The module acquires in its open function what its runner uses. -/
def Module.AcquiresOnOpen (m : Module) : Prop := m = .server ∨ m = .livecapture

/-- A visit does not terminate a session that could not acquire its resource again. -/
def System.SparesResources (c : System) : Event → Prop
  | .visits i answer => (c.world.session i).state ≠ .unused →
      c.world.orderedState answer i = .terminate →
      ∀ m, (c.world.session i).module = some m → ¬ m.AcquiresOnOpen
  | _ => True

/-- What a session to be started has acquired; that it is open follows from the ledger. -/
def World.Acquired (w : World) (i : Slot) : Prop :=
  (w.session i).state = .start →
    ((w.session i).module = some .server →
      0 < (w.session i).fd ∧ w.descriptor (w.session i).fd = .listening) ∧
    ((w.session i).module = some .livecapture → (w.session i).pcapHandle ≠ none)

section Steps

variable {c c' : System} {w w' : World} {i j : Slot} {m : Module}

/-- A descriptor that is open stays what it was opened as. -/
theorem descriptor_openFd {fd fd' : ℤ} {d : Descriptor} (hgrants : w.grants fd = true)
    (hfd : fd' ∈ w.openFds) : (w.openFd fd d).descriptor fd' = w.descriptor fd' := by
  have hne : fd' ≠ fd := by
    rintro rfl
    exact (of_decide_eq_true hgrants).2 hfd
  exact Function.update_of_ne hne _ _

theorem OpenEffect.descriptor (h : OpenEffect w w') {fd : ℤ} (hfd : fd ∈ w.openFds) :
    w'.descriptor fd = w.descriptor fd := by
  cases h with
  | full => rfl
  | refused => rfl
  | plain => rfl
  | server k fd' hk hgrants => exact descriptor_openFd hgrants hfd
  | livecapture k fd' selectable hk hgrants => exact descriptor_openFd hgrants hfd

theorem AcceptEffect.descriptor (h : AcceptEffect w w') {fd : ℤ} (hfd : fd ∈ w.openFds) :
    w'.descriptor fd = w.descriptor fd := by
  have hinit : ∀ w : World, w.initClientconnlist.descriptor = w.descriptor := by
    intro w
    rw [World.initClientconnlist]
    split <;> rfl
  cases h with
  | nothing => rfl
  | rejected fd' hgrants =>
    change (w.openFd fd' .connection).initClientconnlist.descriptor fd = _
    rw [hinit]
    exact descriptor_openFd hgrants hfd
  | accepted k fd' hk hgrants =>
    change (w.openFd fd' .connection).initClientconnlist.descriptor fd = _
    rw [hinit]
    exact descriptor_openFd hgrants hfd

theorem RunnerStep.descriptor (h : RunnerStep i m w w') {fd : ℤ} (hfd : fd ∈ w.openFds) :
    w'.descriptor fd = w.descriptor fd := by
  cases h with
  | tends h => rw [h.rest]
  | accepts h => exact h.descriptor hfd
  | socket _ fd' hgrants => exact descriptor_openFd hgrants hfd
  | dumpFile _ fd' hgrants => exact descriptor_openFd hgrants hfd
  | opensFile _ fd' hgrants => exact descriptor_openFd hgrants hfd
  | _ => rfl

/-- A runner places no session in another slot but one for a connection it has accepted. -/
theorem RunnerStep.unmoved_or_clientconn (h : RunnerStep i m w w') (hj : j ≠ i) :
    (w.session j).Unmoved (w'.session j) ∨ (w'.session j).module = some .clientconn := by
  rcases h.unmoved_or_accepts hj with hunmoved | haccepts
  · exact .inl hunmoved
  · cases haccepts with
    | nothing => exact .inl (.refl _)
    | rejected fd hgrants =>
      rw [World.close_session, (World.initClientconnlist_session _).1]
      exact .inl (.refl _)
    | accepted k fd hk hgrants =>
      by_cases hjk : j = k
      · rw [hjk, World.place, World.session_modifySession_self]
        exact .inr rfl
      · rw [World.place, World.session_modifySession_of_ne _ hjk,
          (World.initClientconnlist_session _).1]
        exact .inl (.refl _)

theorem System.Sound.server_open (h : c.Sound) (hm : (c.world.session i).module = some .server)
    (hfd : 0 < (c.world.session i).fd) : (c.world.session i).fd ∈ c.world.openFds := by
  refine h.ledger.subset i ?_
  have howns : (c.world.session i).OwnsFd := Session.ownsFd_of_module hm nofun nofun
  refine Finset.mem_union_left _ (Finset.mem_union_left _ ?_)
  rw [Session.ownFds, if_pos ⟨howns, hfd⟩]
  exact Finset.mem_singleton_self _

theorem System.Sound.handle_open (h : c.Sound) {handle : PcapHandle}
    (hhandle : (c.world.session i).pcapHandle = some handle) : handle.fd ∈ c.world.openFds := by
  refine h.ledger.subset i (Finset.mem_union_left _ (Finset.mem_union_right _ ?_))
  rw [Session.handleFds, hhandle]
  exact Finset.mem_singleton_self _

theorem System.Sound.acquired_of_unmoved (h : c.Sound) (hi : c.world.Acquired i)
    (hunmoved : (c.world.session i).Unmoved (w'.session i))
    (hdescriptor : ∀ fd ∈ c.world.openFds, w'.descriptor fd = c.world.descriptor fd) :
    w'.Acquired i := by
  rw [World.Acquired, hunmoved]
  intro hstate
  obtain ⟨hserver, hlive⟩ := hi hstate
  refine ⟨fun hm ↦ ?_, hlive⟩
  obtain ⟨hpos, hlistening⟩ := hserver hm
  exact ⟨hpos, (hdescriptor _ (h.server_open hm hpos)).trans hlistening⟩

theorem World.acquired_of_module (hm : (w.session i).module = some m)
    (hother : ¬ m.AcquiresOnOpen) : w.Acquired i := by
  intro _
  refine ⟨fun h ↦ absurd (.inl ?_) hother, fun h ↦ absurd (.inr ?_) hother⟩
  · exact Option.some.inj (hm.symm.trans h)
  · exact Option.some.inj (hm.symm.trans h)

theorem World.acquired_of_state (h : (w.session i).state ≠ .start) : w.Acquired i :=
  fun hstate ↦ absurd hstate h

theorem OpenEffect.acquired (heffect : OpenEffect c.world w') (h : c.Sound)
    (hj : c.world.Acquired j) : w'.Acquired j := by
  have hkeep : (c.world.session j).Unmoved (w'.session j) → w'.Acquired j := fun hunmoved ↦
    h.acquired_of_unmoved hj hunmoved fun fd hfd ↦ heffect.descriptor hfd
  by_cases hused : (c.world.session j).state = .unused
  · have hother : ∀ {w₁ : World} {k : Slot} {s : Session}, w₁.session = c.world.session → j ≠ k →
        (c.world.session j).Unmoved ((w₁.place k s).session j) := by
      intro w₁ k s hw₁ hjk
      rw [World.place, World.session_modifySession_of_ne _ hjk, hw₁]
      exact .refl _
    cases heffect with
    | full => exact hj
    | refused k m hk =>
      by_cases hjk : j = k
      · refine World.acquired_of_state ?_
        rw [hjk, World.place, World.session_modifySession_self]
        simp
      · exact hkeep (hother rfl hjk)
    | plain k s hk hs =>
      by_cases hjk : j = k
      · rcases hs with hs | hs | hs
        all_goals
          refine World.acquired_of_module (by
            rw [hjk, World.place, World.session_modifySession_self, hs]
            rfl) ?_
          rintro (h | h) <;> cases h
      · exact hkeep (hother rfl hjk)
    | server k fd hk hfd =>
      by_cases hjk : j = k
      · intro _
        rw [hjk, World.place, World.session_modifySession_self]
        exact ⟨fun _ ↦ ⟨(of_decide_eq_true hfd).1, Function.update_self ..⟩,
          by simp [Session.opened]⟩
      · exact hkeep (hother rfl hjk)
    | livecapture k fd selectable hk hfd =>
      by_cases hjk : j = k
      · intro _
        rw [hjk, World.place, World.session_modifySession_self]
        simp [Session.opened]
      · exact hkeep (hother rfl hjk)
  · exact hkeep (heffect.unmoved hused)

theorem Session.module_stopAs (s : Session) (m : Module) (newState : SessionState) :
    (s.stopAs m newState).module = s.module := by
  rw [Session.stopAs]
  split <;> cases m <;> rfl

theorem VisitEffect.acquired {answer : Query → ℤ} (heffect : VisitEffect answer i c.world w')
    (h : c.Sound) (hspares : c.SparesResources (.visits i answer)) (hj : c.world.Acquired j) :
    w'.Acquired j := by
  by_cases hji : j = i
  · subst hji
    cases heffect with
    | skipped => exact hj
    | tended hused horder htends =>
      refine h.acquired_of_unmoved hj (htends.session j) fun fd _ ↦ ?_
      rw [htends.rest]
    | started m =>
      refine World.acquired_of_state ?_
      rw [World.state_createThread, World.session_startOrdered_self]
      nofun
    | startFailed m =>
      refine World.acquired_of_state ?_
      rw [World.session_startOrdered_self]
      nofun
    -- a session that is still waiting is not `START`
    | waited horder =>
      refine World.acquired_of_state ?_
      have hstate := World.orderedState_eq_state (by rw [horder]; decide) (by rw [horder]; decide)
      rw [World.session_modifySession_self, ← hstate, horder]
      decide
    | timedOut =>
      refine World.acquired_of_state ?_
      rw [World.state_setState]
      decide
    | stopped m newState horder hused hm =>
      have hm' : ((c.world.stopAs answer j m newState).session j).module = some m := by
        rw [World.session_stopAs_self, Session.module_stopAs]
        exact hm
      -- a module that acquires on opening is spared, unless it is aborted
      by_cases hacquires : m.AcquiresOnOpen
      · rcases horder with ⟨horder, rfl⟩ | ⟨horder, rfl⟩
        · exact absurd hacquires (hspares hused horder m hm)
        · refine World.acquired_of_state ?_
          rw [World.session_stopAs_self, Session.state_stopAs_aborting]
          decide
      · exact World.acquired_of_module hm' hacquires
  · -- another session, whose descriptors keep their kind
    refine h.acquired_of_unmoved hj (heffect.unmoved hji) fun fd _ ↦ ?_
    cases heffect with
    | tended _ _ htends => rw [htends.rest]
    | stopped => rw [World.stopAs_rest]
    | _ => rfl

theorem RunnerStep.acquired (hrunner : RunnerStep i m c.world w') (h : c.Sound)
    (hstate : (w'.session i).state ≠ .start) (hj : c.world.Acquired j) : w'.Acquired j := by
  by_cases hji : j = i
  · exact World.acquired_of_state (hji ▸ hstate)
  · rcases hrunner.unmoved_or_clientconn hji with hunmoved | hm
    · exact h.acquired_of_unmoved hj hunmoved fun fd hfd ↦ hrunner.descriptor hfd
    · refine World.acquired_of_module hm ?_
      rintro (h | h) <;> cases h

/-- **One event** keeps what the sessions to be started have acquired. -/
theorem System.Sound.acquired (h : c.Sound) {e : Event} (hspares : c.SparesResources e)
    (hacquired : ∀ j, c.world.Acquired j) (hstep : c.step e = some c') (j : Slot) :
    c'.world.Acquired j := by
  obtain ⟨heffect, h'⟩ := h.step hstep
  have hstarted : ∀ {t i m}, c'.world.threads t = some (i, m) →
      (c'.world.session i).state ≠ .start := fun ht ↦ (h'.started ht).notStart
  generalize c'.world = w' at heffect hstarted ⊢
  cases heffect with
  | opens heffect => exact heffect.acquired h (hacquired j)
  | visits heffect => exact heffect.acquired h hspares (hacquired j)
  | runs ht hrunner =>
    exact hrunner.acquired h (hstarted (hrunner.threads.1 ▸ ht)) (hacquired j)
  | captures hhandles =>
    refine h.acquired_of_unmoved (hacquired j) (hhandles.session j) fun fd _ ↦ ?_
    rw [hhandles.rest]
  | closes => exact hacquired j

end Steps

/-! ## Runs -/

section Runs

variable {c : System}

theorem System.acquired_of_run {es : List Event} (hrun : System.init.run es = some c)
    (hspares : ∀ es₁ e es₂ c₁, es = es₁ ++ e :: es₂ → System.init.run es₁ = some c₁ →
      c₁.SparesResources e) : c.Sound ∧ ∀ j, c.world.Acquired j := by
  refine System.run_induction (I := fun c ↦ c.Sound ∧ ∀ j, c.world.Acquired j)
    (P := System.SparesResources) (fun c e c' hc hspares hstep ↦ ?_) hspares
    ⟨System.sound_init, fun _ ↦ World.acquired_of_state nofun⟩ hrun
  exact ⟨(hc.1.step hstep).2, hc.1.acquired hspares hc.2 hstep⟩

/-- **A runner that is started finds what it needs**, in a run in which no server and no live
capture is terminated. -/
theorem restarted_session_can_run (es : List Event) (c : System)
    (hrun : System.init.run es = some c)
    (hspares : ∀ es₁ e es₂ c₁, es = es₁ ++ e :: es₂ → System.init.run es₁ = some c₁ →
      c₁.SparesResources e) (i : Slot) (answer : Query → ℤ) (c' : System)
    (hstep : c.step (.visits i answer) = some c') (t : ℕ) (j : Slot) (m : Module)
    (hnone : c.world.threads t = none) (hthread : c'.world.threads t = some (j, m)) :
    c'.world.Equipped j m := by
  obtain ⟨hsound, hacquired⟩ := System.acquired_of_run hrun hspares
  obtain ⟨⟨counted, w'⟩, hexec, rfl⟩ := Option.map_eq_some_iff.mp hstep
  have heffect := hsound.visitEffect hexec
  change w'.threads t = some (j, m) at hthread
  change w'.Equipped j m
  -- Only a start creates a thread.
  have hkept : w'.threads t ≠ c.world.threads t := by
    rw [hnone, hthread]
    nofun
  cases heffect with
  | skipped => exact absurd rfl hkept
  | tended _ _ htends => exact absurd (by rw [htends.rest]) hkept
  | startFailed => exact absurd rfl hkept
  | waited => exact absurd rfl hkept
  | timedOut => exact absurd rfl hkept
  | stopped m' newState =>
    rw [World.stopAs_rest] at hthread
    change (c.world.joined i).threads t = _ at hthread
    rw [World.threads_joined, hnone] at hthread
    split at hthread <;> cases hthread
  | started m' horder hm hcreate =>
    rw [World.threads_createThread] at hthread
    split at hthread
    · obtain ⟨rfl, rfl⟩ := Prod.mk.inj (Option.some.inj hthread)
      have hstate := World.orderedState_eq_state (by rw [horder]; decide) (by rw [horder]; decide)
      obtain ⟨hserver, hlive⟩ := hacquired i (hstate.symm.trans horder)
      have hsession : ((c.world.startOrdered i).createThread i m').session i
          = { c.world.session i with
              state := .starting, intervalCounter := 0, thread := c.world.nextThread } := by
        rw [World.session_createThread_self, World.session_startOrdered_self]
        rfl
      cases m' with
      | server =>
        rw [World.Equipped, hsession]
        obtain ⟨hpos, hlistening⟩ := hserver hm
        exact ⟨hpos, hsound.server_open hm hpos, hlistening⟩
      | livecapture =>
        rw [World.Equipped, hsession]
        obtain ⟨handle, hhandle⟩ := Option.ne_none_iff_exists'.mp (hlive hm)
        exact ⟨handle, hhandle, hsound.handle_open hhandle⟩
      | _ => trivial
    · exact absurd (hnone.symm.trans hthread) nofun

/-- A server is opened and its runner is started. -/
theorem restarted_session_can_run_server :
    ∃ es c i answer c' t, System.init.run es = some c ∧
      c.step (.visits i answer) = some c' ∧ c.world.threads t = none ∧
      c'.world.threads t = some (i, .server) ∧ c'.world.Equipped i .server := by
  let granted : Query → ℤ := fun q ↦ if q = .openServerSocket then 3 else 0
  have hrun : ((System.init.run [.opens .server granted]).bind fun c ↦
      (c.step (.visits 0 granted)).map fun c' ↦ (c.world.threads 1, c'.world.threads 1))
        = some (none, some (0, .server)) := by decide +kernel
  obtain ⟨c, hrun, hstep⟩ := Option.bind_eq_some_iff.mp hrun
  obtain ⟨c', hstep, hthreads⟩ := Option.map_eq_some_iff.mp hstep
  obtain ⟨hnone, hthread⟩ := Prod.mk.inj hthreads
  refine ⟨_, c, 0, granted, c', 1, hrun, hstep, hnone, hthread, ?_⟩
  refine restarted_session_can_run _ c hrun (fun es₁ e es₂ c₁ hes _ ↦ ?_) 0 granted c' hstep 1 0
    .server hnone hthread
  have hmem : e ∈ [Event.opens .server granted] := hes ▸ List.mem_append_right _ List.mem_cons_self
  rw [List.mem_singleton.mp hmem]
  trivial

/-- A server that has been terminated is started without its socket, and a live capture without its
handle: the server after an accept that failed, the live capture after the end of its capture. -/
theorem restarted_session_cannot_run :
    (∃ es c answer c', System.init.run es = some c ∧ c.step (.visits 0 answer) = some c' ∧
      c.world.threads 2 = none ∧ c'.world.threads 2 = some (0, .server) ∧
      ¬ c'.world.Equipped 0 .server) ∧
    (∃ es c answer c', System.init.run es = some c ∧ c.step (.visits 0 answer) = some c' ∧
      c.world.threads 2 = none ∧ c'.world.threads 2 = some (0, .livecapture) ∧
      ¬ c'.world.Equipped 0 .livecapture) := by
  let granted : Query → ℤ := fun q ↦
    if q = .openServerSocket ∨ q = .pcapOpenLive then 3
    else if q = .pcapGetSelectableFd then 1 else 0
  refine ⟨?_, ?_⟩
  · let es : List Event := [.opens .server granted, .visits 0 granted, .runs 1 0, .runs 1 1,
      .runs 1 0, .runs 1 0, .runs 1 0, .runs 1 0, .runs 1 0, .visits 0 granted]
    have hrun : ((System.init.run es).bind fun c ↦ (c.step (.visits 0 granted)).map fun c' ↦
        (c.world.threads 2, c'.world.threads 2, (c'.world.session 0).fd))
          = some (none, some (0, .server), 0) := by decide +kernel
    obtain ⟨c, hrun, hstep⟩ := Option.bind_eq_some_iff.mp hrun
    obtain ⟨c', hstep, hend⟩ := Option.map_eq_some_iff.mp hstep
    obtain ⟨hnone, hend⟩ := Prod.mk.inj hend
    obtain ⟨hthread, hfd⟩ := Prod.mk.inj hend
    refine ⟨es, c, granted, c', hrun, hstep, hnone, hthread, fun hequipped ↦ ?_⟩
    exact hequipped.1.ne' hfd
  · let es : List Event := [.opens .livecapture granted, .visits 0 granted, .runs 1 0, .runs 1 0,
      .runs 1 0, .runs 1 0, .runs 1 0, .runs 1 0, .runs 1 0, .visits 0 granted]
    have hrun : ((System.init.run es).bind fun c ↦ (c.step (.visits 0 granted)).map fun c' ↦
        (c.world.threads 2, c'.world.threads 2, (c'.world.session 0).pcapHandle))
          = some (none, some (0, .livecapture), none) := by decide +kernel
    obtain ⟨c, hrun, hstep⟩ := Option.bind_eq_some_iff.mp hrun
    obtain ⟨c', hstep, hend⟩ := Option.map_eq_some_iff.mp hstep
    obtain ⟨hnone, hend⟩ := Prod.mk.inj hend
    obtain ⟨hthread, hhandle⟩ := Prod.mk.inj hend
    refine ⟨es, c, granted, c', hrun, hstep, hnone, hthread, ?_⟩
    rintro ⟨handle, hsome, -⟩
    exact absurd (hhandle.symm.trans hsome) nofun

end Runs

end DistributorMerger
