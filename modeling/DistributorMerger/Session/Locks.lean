import DistributorMerger.Session.Deeds
import DistributorMerger.Session.VisitWrites

/-!
# Who takes locks

The packet handlers take the merge lock and the locks around dumpers, and the supervisor takes the
lock around an idle dumper that it flushes. Nothing else touches a lock, except that a new session
starts with a new one.
-/

namespace DistributorMerger

/-- No lock is taken or freed; a slot that is not in use may be given a new lock. -/
structure SparesLocks (w w' : World) : Prop where
  /-- The merge lock. -/
  merge : w'.mergeMutex = w.mergeMutex
  /-- The locks around dumpers. -/
  pcap : ∀ j, (w'.session j).pcapMutex = (w.session j).pcapMutex ∨
    (w.session j).state = .unused ∧ (w'.session j).pcapMutex = none

/-- No lock is taken or freed, and no stream is written. -/
structure SparesStreams (w w' : World) : Prop extends SparesLocks w w' where
  /-- The streams. -/
  written : w'.written = w.written

/-- Locks are taken only in the name of `me`. -/
structure LocksAs (me : Agent) (w w' : World) : Prop where
  /-- The merge lock. -/
  merge : w'.mergeMutex = w.mergeMutex ∨ w'.mergeMutex = none ∨ w'.mergeMutex = some me
  /-- The locks around dumpers. -/
  pcap : ∀ j, (w'.session j).pcapMutex = (w.session j).pcapMutex ∨
    (w'.session j).pcapMutex = none ∨ (w'.session j).pcapMutex = some me

section Spares

variable {i : Slot} {w w' : World} {me : Agent}

instance : Std.Refl SparesLocks := ⟨fun _ ↦ ⟨rfl, fun _ ↦ .inl rfl⟩⟩

instance : Std.Refl (LocksAs me) := ⟨fun _ ↦ ⟨.inl rfl, fun _ ↦ .inl rfl⟩⟩

theorem SparesLocks.locksAs (h : SparesLocks w w') : LocksAs me w w' :=
  ⟨.inl h.merge, fun j ↦ (h.pcap j).imp id fun hj ↦ .inl hj.2⟩

theorem sparesLocks_of_eq (hmerge : w'.mergeMutex = w.mergeMutex)
    (hsession : w'.session = w.session) : SparesLocks w w' := by
  refine ⟨hmerge, fun j ↦ .inl ?_⟩
  rw [hsession]

theorem sparesLocks_modifySession {v : World} {f : Session → Session}
    (hmerge : v.mergeMutex = w.mergeMutex) (hsession : v.session = w.session)
    (hf : ∀ s, (f s).pcapMutex = s.pcapMutex) : SparesLocks w (v.modifySession i f) := by
  refine ⟨hmerge, fun j ↦ .inl ?_⟩
  by_cases hj : j = i
  · rw [hj, World.session_modifySession_self, hsession]
    exact hf _
  · rw [World.session_modifySession_of_ne _ hj, hsession]

theorem sparesLocks_place {v : World} {k : Slot} {s : Session}
    (hmerge : v.mergeMutex = w.mergeMutex) (hsession : v.session = w.session)
    (hk : (w.session k).state = .unused) (hs : s.pcapMutex = none) :
    SparesLocks w (v.place k s) := by
  refine ⟨hmerge, fun j ↦ ?_⟩
  by_cases hj : j = k
  · rw [hj, World.place, World.session_modifySession_self]
    exact .inr ⟨hk, hs⟩
  · rw [World.place, World.session_modifySession_of_ne _ hj, hsession]
    exact .inl rfl

theorem OpenEffect.sparesLocks (h : OpenEffect w w') : SparesLocks w w' := by
  cases h with
  | full => exact refl_of SparesLocks w
  | refused k m hk => exact sparesLocks_place rfl rfl hk rfl
  | plain k s hk hs =>
    refine sparesLocks_place rfl rfl hk ?_
    rcases hs with hs | hs | hs <;> rw [hs] <;> rfl
  | server k fd hk => exact sparesLocks_place (v := w.openFd fd .listening) rfl rfl hk rfl
  | livecapture k fd selectable hk =>
    exact sparesLocks_place (v := w.openFd fd .capture) rfl rfl hk rfl

theorem AcceptEffect.sparesLocks (h : AcceptEffect w w') : SparesLocks w w' := by
  have hinit : ∀ w : World, w.initClientconnlist.mergeMutex = w.mergeMutex ∧
      w.initClientconnlist.session = w.session := by
    intro w
    rw [World.initClientconnlist]
    split <;> exact ⟨rfl, rfl⟩
  cases h with
  | nothing => exact refl_of SparesLocks w
  | rejected fd hfd =>
    obtain ⟨hmerge, hsession⟩ := hinit (w.openFd fd .connection)
    exact sparesLocks_of_eq hmerge hsession
  | accepted k fd hk hfd =>
    obtain ⟨hmerge, hsession⟩ := hinit (w.openFd fd .connection)
    exact sparesLocks_place hmerge hsession hk rfl

instance : Std.Refl SparesStreams := ⟨fun w ↦ ⟨refl_of SparesLocks w, rfl⟩⟩

theorem sparesStreams_of_eq (hmerge : w'.mergeMutex = w.mergeMutex)
    (hsession : w'.session = w.session) (hwritten : w'.written = w.written) : SparesStreams w w' :=
  ⟨sparesLocks_of_eq hmerge hsession, hwritten⟩

theorem sparesStreams_modifySession {v : World} {f : Session → Session}
    (hmerge : v.mergeMutex = w.mergeMutex) (hsession : v.session = w.session)
    (hwritten : v.written = w.written) (hf : ∀ s, (f s).pcapMutex = s.pcapMutex) :
    SparesStreams w (v.modifySession i f) :=
  ⟨sparesLocks_modifySession hmerge hsession hf, hwritten⟩

theorem AcceptEffect.sparesStreams (h : AcceptEffect w w') : SparesStreams w w' := by
  refine ⟨h.sparesLocks, ?_⟩
  have hinit : ∀ w : World, w.initClientconnlist.written = w.written := by
    intro w
    rw [World.initClientconnlist]
    split <;> rfl
  cases h with
  | nothing => rfl
  | rejected fd hfd => exact hinit _
  | accepted k fd hk hfd => exact hinit _

end Spares

/-! ## Runners -/

section Runners

variable {i : Slot}

theorem streams_modifySession {f : Session → Session} (hf : ∀ s, (f s).pcapMutex = s.pcapMutex) :
    (modifySession i f).Within SparesStreams :=
  .modify fun _ ↦ sparesStreams_modifySession rfl rfl rfl hf

theorem streams_changeState (newState : SessionState) :
    (pcapsessionChangeState i newState).Within SparesStreams := streams_modifySession fun _ ↦ rfl

theorem streams_monitorOpenSession (m : Module) :
    (monitorOpenSession m i).Within SparesStreams := by
  refine (Prog.Within.query _).bind fun now ↦ .modify fun w ↦ ⟨⟨rfl, fun j ↦ .inl ?_⟩, rfl⟩
  by_cases hj : j = i
  · subst hj
    simp only [World.openMonitor, Function.update_self]
  · simp only [World.openMonitor, Function.update_of_ne hj]

theorem streams_pcapsessionClientRun : (pcapsessionClientRun i).Within SparesStreams := by
  refine (streams_changeState _).bind fun _ ↦ (Prog.Within.query _).bind fun fd ↦
    Prog.Within.bind (.modify fun w ↦ ?_) fun _ ↦ (Prog.Within.read _).bind fun _ ↦
      .ite (streams_changeState _) ((Prog.Within.query _).bind fun _ ↦
        .ite (streams_changeState _) ?_)
  · split
    · exact sparesStreams_modifySession (v := w.openFd fd .connection) rfl rfl rfl fun _ ↦ rfl
    · exact sparesStreams_modifySession rfl rfl rfl fun _ ↦ rfl
  · refine (streams_monitorOpenSession _).bind fun _ ↦ (Prog.Within.query _).bind fun opened ↦ ?_
    refine Prog.Within.bind (streams_modifySession fun _ ↦ rfl) fun _ ↦
      (Prog.Within.read _).bind fun handle ↦ .ite (streams_changeState _) ?_
    exact (Prog.Within.query _).bind fun _ ↦ streams_changeState _

theorem streams_pcapsessionClientconnRun : (pcapsessionClientconnRun i).Within SparesStreams := by
  refine (streams_changeState _).bind fun _ ↦ (streams_monitorOpenSession _).bind fun _ ↦
    (Prog.Within.query _).bind fun opened ↦ Prog.Within.bind (.modify fun w ↦ ?_) fun _ ↦ ?_
  · split
    · exact sparesStreams_modifySession (v := { w with nextDumper := w.nextDumper + 1 }) rfl rfl rfl
        fun _ ↦ rfl
    · exact sparesStreams_modifySession rfl rfl rfl fun _ ↦ rfl
  · refine (Prog.Within.read _).bind fun dumper ↦ .ite (streams_changeState _) (.modify fun w ↦ ?_)
    exact sparesStreams_of_eq rfl rfl rfl

theorem streams_pcapsessionMergerRun : (pcapsessionMergerRun i).Within SparesStreams := by
  refine (streams_changeState _).bind fun _ ↦ (streams_monitorOpenSession _).bind fun _ ↦
    (Prog.Within.query _).bind fun fd ↦ Prog.Within.bind (.modify fun w ↦ ?_) fun _ ↦
      (Prog.Within.read _).bind fun dumper ↦ ?_
  · split
    · exact sparesStreams_modifySession (v := { w.openFd fd .file with
        nextDumper := w.nextDumper + 1 }) rfl rfl rfl fun _ ↦ rfl
    · exact sparesStreams_modifySession rfl rfl rfl fun _ ↦ rfl
  · cases dumper with
    | none => exact streams_changeState _
    | some dumper => exact streams_modifySession fun _ ↦ rfl

theorem streams_serverLoop (rounds : ℕ) : (serverLoop i rounds).Within SparesStreams := by
  induction rounds with
  | zero => exact .pure ()
  | succ rounds ih =>
    refine (Prog.Within.read _).bind fun state ↦ .ite ?_ (.pure ())
    refine (Prog.Within.read _).bind fun fd ↦ (Prog.Within.query _).bind fun accepted ↦ ?_
    refine Prog.Within.bind ⟨fun w w' hw ↦ ?_, fun _ ↦ trivial⟩ fun result ↦ ?_
    · obtain ⟨⟨z, w₁⟩, hexec, rfl⟩ := Option.map_eq_some_iff.mp hw
      exact (acceptEffect_of_exec hexec).sparesStreams
    · have hrest : (if result < 0 then pure () else serverLoop i rounds).Within SparesStreams :=
        .ite (.pure ()) ih
      exact .ite ((streams_changeState _).bind fun _ ↦ hrest) hrest

theorem streams_pcapsessionServerRun : (pcapsessionServerRun i).Within SparesStreams :=
  (streams_changeState _).bind fun _ ↦ (Prog.Within.query _).bind fun rounds ↦
    streams_serverLoop rounds.toNat

theorem streams_closeHandle (handle : PcapHandle) :
    (Prog.modify (·.closeHandle i handle) : SessionProg Unit).Within SparesStreams :=
  .modify fun w ↦ sparesStreams_modifySession (v := w.close handle.fd) rfl rfl rfl fun _ ↦ rfl

theorem streams_pcapsessionLivecaptureRun : (pcapsessionLivecaptureRun i).Within SparesStreams := by
  refine (streams_changeState _).bind fun _ ↦ (streams_monitorOpenSession _).bind fun _ ↦
    (Prog.Within.read _).bind fun handle ↦ ?_
  cases handle with
  | none => exact Prog.Within.stuck.bind fun _ ↦ streams_changeState _
  | some handle =>
    exact (Prog.Within.query _).bind fun _ ↦ (streams_closeHandle handle).bind fun _ ↦
      streams_changeState _

theorem streams_streamFiles (files : ℕ) : (streamFiles i files).Within SparesStreams := by
  induction files with
  | zero => exact .pure true
  | succ files ih =>
    refine (Prog.Within.query _).bind fun fd ↦ Prog.Within.bind (.modify fun w ↦ ?_) fun _ ↦
      (Prog.Within.read _).bind fun handle ↦ ?_
    · split
      · exact sparesStreams_modifySession (v := w.openFd fd .file) rfl rfl rfl fun _ ↦ rfl
      · exact sparesStreams_modifySession rfl rfl rfl fun _ ↦ rfl
    · cases handle with
      | none => exact (streams_changeState _).bind fun _ ↦ .pure false
      | some handle =>
        refine (Prog.Within.query _).bind fun selectable ↦ ?_
        refine Prog.Within.bind (streams_modifySession fun _ ↦ rfl) fun _ ↦ ?_
        refine Prog.Within.bind (streams_modifySession fun _ ↦ rfl) fun _ ↦ ?_
        refine (Prog.Within.query _).bind fun _ ↦ ?_
        refine Prog.Within.bind (streams_modifySession fun _ ↦ rfl) fun _ ↦ ?_
        refine Prog.Within.bind (streams_modifySession fun _ ↦ rfl) fun _ ↦ ?_
        exact (streams_closeHandle handle).bind fun _ ↦ ih

theorem streams_filePasses (rounds : ℕ) : (filePasses i rounds).Within SparesStreams := by
  induction rounds with
  | zero => exact .pure ()
  | succ rounds ih =>
    refine Prog.Within.bind (streams_modifySession fun _ ↦ rfl) fun _ ↦
      (Prog.Within.query _).bind fun opened ↦ .ite (streams_changeState _) ?_
    refine (Prog.Within.query _).bind fun files ↦ (streams_streamFiles _).bind fun all ↦
      .ite ?_ (.pure ())
    exact (Prog.Within.read _).bind fun iterations ↦ .ite ih (streams_changeState _)

/-- **Runners touch no lock and no stream.** -/
theorem streams_runner (m : Module) (i : Slot) : (runner m i).Within SparesStreams := by
  cases m with
  | client => exact streams_pcapsessionClientRun
  | clientconn => exact streams_pcapsessionClientconnRun
  | merger => exact streams_pcapsessionMergerRun
  | server => exact streams_pcapsessionServerRun
  | livecapture => exact streams_pcapsessionLivecaptureRun
  | filecapture =>
    refine (streams_changeState _).bind fun _ ↦ (streams_monitorOpenSession _).bind fun _ ↦ ?_
    exact (Prog.Within.query _).bind fun rounds ↦ streams_filePasses rounds.toNat

end Runners

/-! ## Visits -/

/-- A statement touches no lock, and writes the state of a session only at slot `i` and only if `Φ`
is said of what it writes. -/
structure Puts (Φ : SessionState → Prop) (i : Slot) (w w' : World) : Prop
    extends SparesLocks w w' where
  /-- The states. -/
  state : ∀ j, (w'.session j).state = (w.session j).state ∨ j = i ∧ Φ (w'.session j).state

/-- The statement touches no other session. -/
structure PutsAt (Φ : SessionState → Prop) (i : Slot) (w w' : World) : Prop
    extends Puts Φ i w w' where
  /-- The other sessions. -/
  others : ∀ j, j ≠ i → w'.session j = w.session j

section Visits

variable {i : Slot} {Φ : SessionState → Prop} {w w' : World}

instance : Std.Refl (PutsAt Φ i) :=
  ⟨fun w ↦ ⟨⟨refl_of SparesLocks w, fun _ ↦ .inl rfl⟩, fun _ _ ↦ rfl⟩⟩

theorem puts_of_writes {α : Type} {p : SessionProg α} (h : p.Within (VisitWrites Φ i)) :
    p.Within (PutsAt Φ i) := by
  refine h.mono fun w w' hw ↦ ⟨⟨⟨hw.mergeMutex, fun j ↦ .inl (hw.pcapMutex j)⟩, fun j ↦ ?_⟩,
    fun j hj ↦ hw.others hj⟩
  by_cases hj : j = i
  · subst hj
    exact hw.state_cases.imp id fun h ↦ ⟨rfl, h⟩
  · exact .inl (by rw [hw.others hj])

theorem streams_superviseMonitor : (superviseMonitor i).Within SparesStreams :=
  (writes_superviseMonitor (Φ := fun _ ↦ True)).mono fun _ _ hw ↦
    ⟨⟨hw.mergeMutex, fun j ↦ .inl (hw.pcapMutex j)⟩, hw.written⟩

theorem locksAs_pcapMutex {me : Agent} (w : World) (i : Slot) {holder : Option Agent}
    (h : holder = none ∨ holder = some me) :
    LocksAs me w (w.modifySession i ({ · with pcapMutex := holder })) := by
  refine ⟨.inl rfl, fun j ↦ ?_⟩
  by_cases hj : j = i
  · rw [hj, World.session_modifySession_self]
    exact .inr h
  · rw [World.session_modifySession_of_ne _ hj]
    exact .inl rfl

theorem locksAs_lockPcapMutex (me : Agent) : (lockPcapMutex me i).Within (LocksAs me) :=
  .await fun w _ ↦ locksAs_pcapMutex w i (.inr rfl)

theorem locksAs_unlockPcapMutex (me : Agent) : (unlockPcapMutex i).Within (LocksAs me) :=
  .modify fun w ↦ locksAs_pcapMutex w i (.inl rfl)

/-- **The supervisor takes locks in its own name only.** -/
theorem locksAs_superviseSession : (superviseSession i).Within (LocksAs .supervisor) := by
  have hwrites : ∀ {α : Type} {p : SessionProg α}, p.Within (VisitWrites (fun _ ↦ True) i) →
      p.Within (LocksAs .supervisor) := fun h ↦
    (puts_of_writes h).mono fun _ _ h ↦ h.toSparesLocks.locksAs
  refine (Prog.Within.read _).bind fun state ↦ .ite (.pure false) ?_
  refine (hwrites (writes_orderAbort trivial)).bind fun _ ↦
    (hwrites (writes_checkDescriptor trivial)).bind fun _ ↦
      Prog.Within.bind ?_ fun _ ↦ (Prog.Within.read _).bind fun state ↦ ?_
  · rw [pcapsessionTransitionSession_eq]
    refine (Prog.Within.read _).bind fun state ↦ hwrites ?_
    exact writes_transitionFrom (fun _ _ ↦ trivial) fun _ ↦ trivial
  refine .ite (Prog.Within.bind ?_ fun _ ↦
    (streams_superviseMonitor.mono fun _ _ h ↦ h.locksAs).bind fun _ ↦ .pure true) (.pure true)
  refine (Prog.Within.read _).bind fun monitor ↦ ?_
  cases monitor with
  | none => exact .pure ()
  | some monitor =>
    refine (Prog.Within.read _).bind fun dumper ↦ .ite ?_ (.pure ())
    refine (Prog.Within.read _).bind fun bytes ↦ .ite ?_ (.pure ())
    exact (locksAs_lockPcapMutex _).bind fun _ ↦ locksAs_unlockPcapMutex _

end Visits

/-! ## Packet handlers -/

section Handlers

variable {i : Slot}

theorem streams_monitorIncrement (j : Slot) (packets bytes : ℤ) :
    (monitorIncrement j packets bytes).Within SparesStreams := streams_modifySession fun _ ↦ rfl

theorem locks_pcapDump (dumper : Option PcapDumper) (j : Slot) (header : PcapPkthdr)
    (data : World → Memory) : (pcapDump dumper j header data).Within SparesLocks := by
  cases dumper with
  | none => exact .stuck
  | some dumper =>
    exact Prog.Within.bind (.modify fun w ↦ sparesLocks_of_eq rfl rfl) fun _ ↦
      .modify fun w ↦ sparesLocks_of_eq rfl rfl

theorem streams_untunnelledHeader (merger : Slot) (header : PcapPkthdr) :
    (untunnelledHeader merger i header).Within SparesStreams := by
  refine (Prog.Within.read _).bind fun untunnel ↦ .ite (.update _ fun w ↦ ?_) (.pure header)
  let u := pcapsessionUntunnelPacket (w.session merger).monitor header (w.buffer i)
  have huntunnel : w.untunnel merger i header = World.modifySession
      { w with buffer := Function.update w.buffer i u.data } merger
        ({ · with monitor := u.monitor }) :=
    rfl
  rw [huntunnel]
  exact sparesStreams_modifySession rfl rfl rfl fun _ ↦ rfl

/-- **A packet handler takes locks in the name of its session only.** -/
theorem locksAs_packetHandler {m : Module} {p : Packet} {handler : SessionProg Unit}
    (h : packetHandler i p m = some handler) : handler.Within (LocksAs (.session i)) := by
  have hspares : ∀ {α : Type} {p : SessionProg α}, p.Within SparesLocks →
      p.Within (LocksAs (.session i)) := fun h ↦ h.mono fun _ _ h ↦ h.locksAs
  have hquiet : ∀ {α : Type} {p : SessionProg α}, p.Within SparesStreams →
      p.Within (LocksAs (.session i)) := fun h ↦ h.mono fun _ _ h ↦ h.locksAs
  have hmerge : ∀ (w : World) holder, holder = none ∨ holder = some (.session i) →
      LocksAs (.session i) w { w with mergeMutex := holder } := fun w _ hholder ↦
    ⟨.inr hholder, fun _ ↦ .inl rfl⟩
  have hfill : (fillBuffer i p.data).Within (LocksAs (.session i)) :=
    hspares (.modify fun w ↦ sparesLocks_of_eq rfl rfl)
  -- each listed client is locked and unlocked in turn
  have hdistribute : ∀ slots, (distributePacket i p.header slots).Within
      (LocksAs (.session i)) := by
    intro slots
    induction slots with
    | nil => exact .pure ()
    | cons j slots ih =>
      refine (Prog.Within.read _).bind fun client ↦ ?_
      cases client with
      | none => exact ih
      | some client =>
        refine Prog.Within.bind ?_ fun _ ↦ ih
        refine (Prog.Within.read _).bind fun state ↦ .ite ?_ (.pure ())
        refine (Prog.Within.read _).bind fun fd ↦
          (within_iotestsFdOpen _ _).bind fun _ ↦ .ite ?_ ?_
        · refine (locksAs_lockPcapMutex _).bind fun _ ↦ (Prog.Within.read _).bind fun dumper ↦
            (hspares (locks_pcapDump _ _ _ _)).bind fun _ ↦ ?_
          exact (locksAs_unlockPcapMutex _).bind fun _ ↦ hquiet (streams_monitorIncrement _ _ _)
        · exact (Prog.Within.read _).bind fun id ↦ hspares (.modify fun w ↦
            sparesLocks_of_eq rfl rfl)
  have hcapture : (capturePacket i p).Within (LocksAs (.session i)) :=
    hfill.bind fun _ ↦ (hquiet (streams_monitorIncrement _ _ _)).bind fun _ ↦ hdistribute _
  cases m with
  | client =>
    cases h
    refine hfill.bind fun _ ↦ (Prog.Within.read _).bind fun merger ↦ ?_
    cases merger with
    | none => exact .pure ()
    | some merger =>
      -- `merge_mutex` is held around the merger's own lock
      refine Prog.Within.bind (.await fun w _ ↦ hmerge w _ (.inr rfl)) fun _ ↦
        (hquiet (streams_untunnelledHeader _ _)).bind fun newHeader ↦ ?_
      refine (locksAs_lockPcapMutex _).bind fun _ ↦ (Prog.Within.read _).bind fun dumper ↦
        (hspares (locks_pcapDump _ _ _ _)).bind fun _ ↦ (locksAs_unlockPcapMutex _).bind fun _ ↦ ?_
      refine (hquiet (streams_monitorIncrement _ _ _)).bind fun _ ↦
        (hquiet (streams_monitorIncrement _ _ _)).bind fun _ ↦ ?_
      exact .modify fun w ↦ hmerge w _ (.inl rfl)
  | livecapture =>
    cases h
    exact hcapture
  | filecapture =>
    cases h
    exact hcapture
  | clientconn => cases h
  | merger => cases h
  | server => cases h

end Handlers

end DistributorMerger
