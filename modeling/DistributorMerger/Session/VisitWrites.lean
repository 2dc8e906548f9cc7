import DistributorMerger.Session.Supervision

/-!
# What a visit writes

Whatever state it finds, a statement of a visit to slot `i` writes fields of the session in that
slot, its state, or something that belongs to no session. The parts of a visit are gone through once
here: what a statement may write says what it leaves alone. The lock around an idle dumper is apart.
-/

namespace DistributorMerger

/-- What a statement of a visit to slot `i` writes; `Φ` is said of the states it writes. -/
inductive VisitWrites (Φ : SessionState → Prop) (i : Slot) (w : World) : World → Prop
  /-- Something that belongs to no session. -/
  | rest {w' : World} (hsession : w'.session = w.session)
      (hhandling : w'.handlingState = w.handlingState) (hmerge : w'.mergeMutex = w.mergeMutex)
      (hwritten : w'.written = w.written) : VisitWrites Φ i w w'
  /-- Fields of the session. -/
  | fields (f : Session → Session)
      (hf : ∀ s, (f s).state = s.state ∧ (f s).pcapMutex = s.pcapMutex) :
      VisitWrites Φ i w (w.modifySession i f)
  /-- The state of the session. -/
  | state (newState : SessionState) (h : Φ newState) :
      VisitWrites Φ i w (w.modifySession i ({ · with state := newState }))
  /-- The thread of the session. -/
  | creates (m : Module) : VisitWrites Φ i w (w.createThread i m)

section VisitWrites

variable {i : Slot} {Φ : SessionState → Prop} {w w' : World}

instance : Std.Refl (VisitWrites Φ i) := ⟨fun _ ↦ .rest rfl rfl rfl rfl⟩

theorem VisitWrites.handlingState (h : VisitWrites Φ i w w') :
    w'.handlingState = w.handlingState := by
  cases h with
  | rest hsession hhandling => exact hhandling
  | fields => rfl
  | state => rfl
  | creates => rfl

theorem VisitWrites.mergeMutex (h : VisitWrites Φ i w w') : w'.mergeMutex = w.mergeMutex := by
  cases h with
  | rest hsession hhandling hmerge => exact hmerge
  | fields => rfl
  | state => rfl
  | creates => rfl

theorem VisitWrites.written (h : VisitWrites Φ i w w') : w'.written = w.written := by
  cases h with
  | rest hsession hhandling hmerge hwritten => exact hwritten
  | fields => rfl
  | state => rfl
  | creates => rfl

theorem VisitWrites.others (h : VisitWrites Φ i w w') {j : Slot} (hj : j ≠ i) :
    w'.session j = w.session j := by
  cases h with
  | rest hsession => rw [hsession]
  | fields f => exact World.session_modifySession_of_ne w hj f
  | state newState => exact World.session_modifySession_of_ne w hj _
  | creates m => exact World.session_createThread_of_ne w m hj

theorem VisitWrites.pcapMutex (h : VisitWrites Φ i w w') (j : Slot) :
    (w'.session j).pcapMutex = (w.session j).pcapMutex := by
  by_cases hj : j = i
  · subst hj
    cases h with
    | rest hsession => rw [hsession]
    | fields f hf =>
      rw [World.session_modifySession_self]
      exact (hf _).2
    | state newState => rw [World.session_modifySession_self]
    | creates m => rw [World.session_createThread_self]
  · rw [h.others hj]

theorem VisitWrites.state_cases (h : VisitWrites Φ i w w') :
    (w'.session i).state = (w.session i).state ∨ Φ (w'.session i).state := by
  cases h with
  | rest hsession =>
    rw [hsession]
    exact .inl rfl
  | fields f hf =>
    rw [World.session_modifySession_self]
    exact .inl (hf _).1
  | state newState h =>
    rw [World.session_modifySession_self]
    exact .inr h
  | creates m => exact .inl (w.state_createThread i i m)

/-! ## Stops -/

theorem writes_rest {f : World → World}
    (hf : ∀ w, (f w).session = w.session ∧ (f w).handlingState = w.handlingState ∧
      (f w).mergeMutex = w.mergeMutex ∧ (f w).written = w.written) :
    (Prog.modify f : SessionProg Unit).Within (VisitWrites Φ i) :=
  .modify fun w ↦ .rest (hf w).1 (hf w).2.1 (hf w).2.2.1 (hf w).2.2.2

theorem writes_fields {f : Session → Session}
    (hf : ∀ s, (f s).state = s.state ∧ (f s).pcapMutex = s.pcapMutex) :
    (modifySession i f).Within (VisitWrites Φ i) := .modify fun _ ↦ .fields f hf

theorem writes_changeState {newState : SessionState} (h : Φ newState) :
    (pcapsessionChangeState i newState).Within (VisitWrites Φ i) :=
  .modify fun _ ↦ .state newState h

theorem writes_closePcapHandle : (closePcapHandle i).Within (VisitWrites Φ i) := by
  refine (Prog.Within.read _).bind fun handle ↦ ?_
  cases handle with
  | none => exact .pure ()
  | some handle =>
    exact Prog.Within.bind (writes_rest fun _ ↦ ⟨rfl, rfl, rfl, rfl⟩) fun _ ↦
      writes_fields fun _ ↦ ⟨rfl, rfl⟩

theorem writes_closePcapDumper : (closePcapDumper i).Within (VisitWrites Φ i) := by
  have hforget : (modifySession i ({ · with pcapDumper := none })).Within (VisitWrites Φ i) :=
    writes_fields fun _ ↦ ⟨rfl, rfl⟩
  refine (Prog.Within.read _).bind fun dumper ↦ ?_
  cases dumper with
  | none => exact hforget
  | some dumper =>
    refine (within_iotestsFdOpen _ _).bind fun _ ↦ .ite ?_ hforget
    refine (within_iotestsFdOpen _ _).bind fun _ ↦ .ite ?_ (hforget.bind fun _ ↦ hforget)
    refine Prog.Within.bind (writes_rest fun _ ↦ ⟨rfl, rfl, rfl, rfl⟩) fun _ ↦ ?_
    exact hforget.bind fun _ ↦ hforget

theorem writes_clearFd : (modifySession i ({ · with fd := 0 })).Within (VisitWrites Φ i) :=
  writes_fields fun _ ↦ ⟨rfl, rfl⟩

theorem writes_closeFd (fd : ℤ) : (do close fd; modifySession i ({ · with fd := 0 }) :
    SessionProg Unit).Within (VisitWrites Φ i) :=
  Prog.Within.bind (writes_rest fun _ ↦ ⟨rfl, rfl, rfl, rfl⟩) fun _ ↦ writes_clearFd

theorem writes_closeOpenFd : (closeOpenFd i).Within (VisitWrites Φ i) := by
  refine (Prog.Within.read _).bind fun fd ↦ .ite ?_ writes_clearFd
  exact (within_iotestsFdOpen _ _).bind fun _ ↦ .ite (writes_closeFd fd) writes_clearFd

theorem writes_closeMonitor : (closeMonitor i).Within (VisitWrites Φ i) := by
  refine (Prog.Within.read _).bind fun monitor ↦ ?_
  cases monitor with
  | none => exact .pure ()
  | some monitor => exact writes_fields fun _ ↦ ⟨rfl, rfl⟩

theorem writes_restartUnlessAborting (hstopped : Φ .stopped) (hstart : Φ .start) :
    (restartUnlessAborting i).Within (VisitWrites Φ i) :=
  (Prog.Within.read _).bind fun _ ↦ .ite (writes_changeState hstopped) (writes_changeState hstart)

/-- A stopper stops the session or has it started again. -/
theorem writes_stopper (hstopped : Φ .stopped) (hstart : Φ .start) (m : Module) :
    (stopper m i).Within (VisitWrites Φ i) := by
  have hrestart := writes_restartUnlessAborting (i := i) hstopped hstart
  have hfinish : (do closeMonitor i; restartUnlessAborting i : SessionProg Unit).Within
      (VisitWrites Φ i) := writes_closeMonitor.bind fun _ ↦ hrestart
  cases m with
  | client =>
    exact writes_closePcapHandle.bind fun _ ↦ writes_closeOpenFd.bind fun _ ↦ hfinish
  | clientconn =>
    refine Prog.Within.bind (writes_rest fun _ ↦ ⟨rfl, rfl, rfl, rfl⟩) fun _ ↦
      writes_closePcapDumper.bind fun _ ↦ writes_closePcapHandle.bind fun _ ↦ ?_
    exact writes_closeOpenFd.bind fun _ ↦ writes_closeMonitor.bind fun _ ↦
      writes_changeState hstopped
  | merger =>
    refine writes_closePcapDumper.bind fun _ ↦ writes_closePcapHandle.bind fun _ ↦
      writes_closeOpenFd.bind fun _ ↦ (Prog.Within.read _).bind fun fd ↦ .ite ?_ hfinish
    exact (writes_closeFd fd).bind fun _ ↦ hfinish
  | server =>
    refine (Prog.Within.read _).bind fun fd ↦ .ite ?_ hrestart
    exact (writes_closeFd fd).bind fun _ ↦ hrestart
  | livecapture => exact writes_closePcapHandle.bind fun _ ↦ hfinish
  | filecapture =>
    refine writes_closePcapHandle.bind fun _ ↦ writes_closeMonitor.bind fun _ ↦
      (Prog.Within.read _).bind fun state ↦ .ite (writes_changeState hstopped) ?_
    exact (Prog.Within.read _).bind fun iterations ↦
      .ite (writes_changeState hstopped) (writes_changeState hstart)

theorem writes_stopAndRelease (hstopped : Φ .stopped) (hstart : Φ .start) (hunused : Φ .unused) :
    (stopAndRelease i).Within (VisitWrites Φ i) := by
  have hrelease : (do
      if (← readSession i (·.state)) = .stopped then
        pcapsessionChangeState i .unused : SessionProg Unit).Within (VisitWrites Φ i) :=
    (Prog.Within.read _).bind fun _ ↦ .ite (writes_changeState hunused) (.pure ())
  refine (Prog.Within.read _).bind fun m ↦ ?_
  cases m with
  | none => exact Prog.Within.stuck.bind fun _ ↦ hrelease
  | some m => exact (writes_stopper hstopped hstart m).bind fun _ ↦ hrelease

theorem writes_pcapsessionStop (hstopped : Φ .stopped) (hstart : Φ .start) (hunused : Φ .unused) :
    (pcapsessionStop i).Within (VisitWrites Φ i) := by
  have hrest := writes_stopAndRelease (i := i) hstopped hstart hunused
  refine (Prog.Within.read _).bind fun thread ↦ .ite ?_ hrest
  refine Prog.Within.bind (writes_rest fun _ ↦ ⟨rfl, rfl, rfl, rfl⟩) fun _ ↦
    Prog.Within.bind (writes_rest fun _ ↦ ⟨rfl, rfl, rfl, rfl⟩) fun _ ↦ ?_
  exact Prog.Within.bind (writes_fields fun _ ↦ ⟨rfl, rfl⟩) fun _ ↦ hrest

/-! ## Orders and transitions -/

theorem writes_pcapsessionStart : (pcapsessionStart i).Within (VisitWrites Φ i) := by
  refine (Prog.Within.read _).bind fun state ↦ .ite (.pure false) (Prog.Within.bind ?_
    fun _ ↦ .pure _)
  refine (Prog.Within.query _).bind fun result ↦ (Prog.Within.read _).bind fun m ↦ ?_
  cases m with
  | none => exact Prog.Within.stuck.bind fun _ ↦ .pure _
  | some m => exact .ite (Prog.Within.bind (.modify fun w ↦ .creates m) fun _ ↦ .pure _) (.pure _)

theorem writes_resetInterval :
    (modifySession i ({ · with intervalCounter := 0 })).Within (VisitWrites Φ i) :=
  writes_fields fun _ ↦ ⟨rfl, rfl⟩

theorem writes_countInterval {timedOut : SessionProg Unit}
    (h : timedOut.Within (VisitWrites Φ i)) :
    (countInterval i timedOut).Within (VisitWrites Φ i) :=
  (Prog.Within.read _).bind fun _ ↦ .ite h (writes_fields fun _ ↦ ⟨rfl, rfl⟩)

theorem writes_orderAbort (habort : Φ .abort) : (orderAbort i).Within (VisitWrites Φ i) := by
  refine (Prog.Within.read _).bind fun _ ↦ .ite ?_ (.pure ())
  refine (Prog.Within.read _).bind fun _ ↦ .ite ?_ (.pure ())
  exact (Prog.Within.read _).bind fun _ ↦ .ite (writes_changeState habort) (.pure ())

theorem writes_checkDescriptor (hterminate : Φ .terminate) :
    (checkDescriptor i).Within (VisitWrites Φ i) := by
  refine (Prog.Within.read _).bind fun _ ↦ .ite ?_ (.pure ())
  refine (Prog.Within.read _).bind fun _ ↦ .ite ?_ (.pure ())
  refine (Prog.Within.read _).bind fun _ ↦ (within_iotestsFdOpen _ _).bind fun _ ↦ ?_
  exact .ite (writes_changeState hterminate) (.pure ())

/-- A transition writes `ABORTING` only when it carries out an abort. -/
theorem writes_transitionFrom {state : SessionState}
    (hΦ : ∀ newState, newState ≠ .aborting → Φ newState) (hstate : state = .abort → Φ .aborting) :
    (transitionFrom i state).Within (VisitWrites Φ i) := by
  have hstop : (pcapsessionStop i).Within (VisitWrites Φ i) :=
    writes_pcapsessionStop (hΦ .stopped nofun) (hΦ .start nofun) (hΦ .unused nofun)
  have horder : ∀ {newState}, Φ newState → (orderStop i newState).Within (VisitWrites Φ i) :=
    fun h ↦ (writes_changeState h).bind fun _ ↦ writes_resetInterval.bind fun _ ↦ hstop
  have htimeout := writes_countInterval
    ((writes_changeState (i := i) (hΦ .stopped nofun)).bind fun _ ↦ hstop)
  cases state with
  | unused => exact .pure ()
  | stopped => exact .pure ()
  | start =>
    refine (writes_changeState (hΦ .starting nofun)).bind fun _ ↦
      writes_resetInterval.bind fun _ ↦ ?_
    exact writes_pcapsessionStart.bind fun _ ↦ .pure ()
  | starting => exact writes_countInterval (writes_changeState (hΦ .terminate nofun))
  | running => exact .pure ()
  | terminate => exact horder (hΦ .terminating nofun)
  | abort => exact horder (hstate rfl)
  | terminating => exact htimeout
  | aborting => exact htimeout

theorem writes_superviseMonitor : (superviseMonitor i).Within (VisitWrites Φ i) := by
  have hmonitor : ∀ f, (modifyMonitor i f).Within (VisitWrites Φ i) := fun _ ↦
    writes_fields fun _ ↦ ⟨rfl, rfl⟩
  refine (Prog.Within.read _).bind fun monitor ↦ ?_
  cases monitor with
  | none => exact .pure ()
  | some monitor =>
    refine (Prog.Within.query _).bind fun currentTime ↦ ?_
    refine Prog.Within.bind (writes_rest fun _ ↦ ⟨rfl, rfl, rfl, rfl⟩) fun _ ↦ ?_
    refine (Prog.Within.read _).bind fun tick ↦ (Prog.Within.read _).bind fun monitor ↦ ?_
    cases monitor with
    | none => exact .stuck
    | some monitor =>
      refine .ite (Prog.Within.bind (writes_rest fun _ ↦ ⟨rfl, rfl, rfl, rfl⟩) fun _ ↦ ?_)
        (.pure ())
      unfold clearMonitor
      iterate 7 refine (hmonitor _).bind fun _ ↦ ?_
      exact hmonitor _

end VisitWrites

end DistributorMerger
