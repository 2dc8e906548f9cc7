import DistributorMerger.Concurrency.LockOrder
import DistributorMerger.Session.Run

/-!
# What waits for nothing

The runners, and the supervisor apart from the lock around a dumper that it flushes, wait for
nothing but the environment: each of their statements can be executed in every state, or follows a
null pointer and can be executed in none.
-/

namespace DistributorMerger

section Statements

variable (i : Slot)

theorem steady_modifySession (f : Session → Session) : (modifySession i f).Steady := .modify _

theorem steady_readSession {α : Type} (f : Session → α) : (readSession i f).Steady := .read _

theorem steady_changeState (newState : SessionState) :
    (pcapsessionChangeState i newState).Steady := .modify _

theorem steady_iotestsFdOpen (q : Query) (fd : ℤ) : (iotestsFdOpen q fd).Steady :=
  (Prog.Steady.query q).bind fun _ ↦ .read _

theorem steady_close (fd : ℤ) : (close fd).Steady := .modify _

theorem steady_monitorOpenSession (m : Module) : (monitorOpenSession m i).Steady :=
  (Prog.Steady.query _).bind fun _ ↦ .modify _

end Statements

/-! ## Runners -/

section Runners

variable (i : Slot)

theorem steady_pcapsessionClientRun : (pcapsessionClientRun i).Steady := by
  refine (steady_changeState i _).bind fun _ ↦ (Prog.Steady.query _).bind fun fd ↦
    (Prog.Steady.modify _).bind fun _ ↦ (steady_readSession i _).bind fun fd' ↦
      .ite (steady_changeState i _) ((Prog.Steady.query _).bind fun connected ↦
        .ite (steady_changeState i _) ?_)
  refine (steady_monitorOpenSession i _).bind fun _ ↦ (Prog.Steady.query _).bind fun opened ↦
    (steady_modifySession i _).bind fun _ ↦ (steady_readSession i _).bind fun handle ↦
      .ite (steady_changeState i _) ?_
  exact (Prog.Steady.query _).bind fun _ ↦ steady_changeState i _

theorem steady_pcapsessionClientconnRun : (pcapsessionClientconnRun i).Steady := by
  refine (steady_changeState i _).bind fun _ ↦ (steady_monitorOpenSession i _).bind fun _ ↦
    (Prog.Steady.query _).bind fun opened ↦ (Prog.Steady.modify _).bind fun _ ↦ ?_
  exact (steady_readSession i _).bind fun dumper ↦ .ite (steady_changeState i _) (.modify _)

theorem steady_pcapsessionMergerRun : (pcapsessionMergerRun i).Steady := by
  refine (steady_changeState i _).bind fun _ ↦ (steady_monitorOpenSession i _).bind fun _ ↦
    (Prog.Steady.query _).bind fun fd ↦ (Prog.Steady.modify _).bind fun _ ↦
      (steady_readSession i _).bind fun dumper ↦ ?_
  cases dumper with
  | none => exact steady_changeState i _
  | some dumper => exact steady_modifySession i _

/-- The rounds of a server, by induction on those still to come. The wait in `accept` is a question
to the environment, which may always answer. -/
theorem steady_serverLoop (rounds : ℕ) : (serverLoop i rounds).Steady := by
  induction rounds with
  | zero => exact .pure ()
  | succ rounds ih =>
    refine (steady_readSession i _).bind fun state ↦ .ite ?_ (.pure ())
    refine (steady_readSession i _).bind fun fd ↦ (Prog.Steady.query _).bind fun accepted ↦
      (Prog.Steady.atomically fun w ↦ ?_).bind fun result ↦ ?_
    · rw [exec_pollServerSocket]
      rfl
    · have hrest : (if result < 0 then pure () else serverLoop i rounds).Steady :=
        .ite (.pure ()) ih
      exact .ite ((steady_changeState i _).bind fun _ ↦ hrest) hrest

theorem steady_pcapsessionServerRun : (pcapsessionServerRun i).Steady :=
  (steady_changeState i _).bind fun _ ↦ (Prog.Steady.query _).bind fun rounds ↦
    steady_serverLoop i rounds.toNat

theorem steady_pcapsessionLivecaptureRun : (pcapsessionLivecaptureRun i).Steady := by
  refine (steady_changeState i _).bind fun _ ↦ (steady_monitorOpenSession i _).bind fun _ ↦
    (steady_readSession i _).bind fun handle ↦ ?_
  cases handle with
  | none => exact Prog.Steady.stuck.bind fun _ ↦ steady_changeState i _
  | some handle =>
    exact (Prog.Steady.query _).bind fun _ ↦ (Prog.Steady.modify _).bind fun _ ↦
      steady_changeState i _

/-- The files of one pass, by induction on those still to come. A file that does not open ends the
runner. -/
theorem steady_streamFiles (files : ℕ) : (streamFiles i files).Steady := by
  induction files with
  | zero => exact .pure true
  | succ files ih =>
    refine (Prog.Steady.query _).bind fun fd ↦ (Prog.Steady.modify _).bind fun _ ↦
      (steady_readSession i _).bind fun handle ↦ ?_
    cases handle with
    | none => exact (steady_changeState i _).bind fun _ ↦ .pure false
    | some handle =>
      refine (Prog.Steady.query _).bind fun selectable ↦ (steady_modifySession i _).bind fun _ ↦
        (steady_modifySession i _).bind fun _ ↦ (Prog.Steady.query _).bind fun _ ↦ ?_
      exact (steady_modifySession i _).bind fun _ ↦ (steady_modifySession i _).bind fun _ ↦
        (Prog.Steady.modify _).bind fun _ ↦ ih

theorem steady_filePasses (rounds : ℕ) : (filePasses i rounds).Steady := by
  induction rounds with
  | zero => exact .pure ()
  | succ rounds ih =>
    refine (steady_modifySession i _).bind fun _ ↦ (Prog.Steady.query _).bind fun opened ↦
      .ite (steady_changeState i _) ?_
    refine (Prog.Steady.query _).bind fun files ↦ (steady_streamFiles i _).bind fun all ↦
      .ite ?_ (.pure ())
    exact (steady_readSession i _).bind fun iterations ↦ .ite ih (steady_changeState i _)

/-- **Runners wait for the environment only.** -/
theorem steady_runner (m : Module) : (runner m i).Steady := by
  cases m with
  | client => exact steady_pcapsessionClientRun i
  | clientconn => exact steady_pcapsessionClientconnRun i
  | merger => exact steady_pcapsessionMergerRun i
  | server => exact steady_pcapsessionServerRun i
  | livecapture => exact steady_pcapsessionLivecaptureRun i
  | filecapture =>
    exact (steady_changeState i _).bind fun _ ↦ (steady_monitorOpenSession i _).bind fun _ ↦
      (Prog.Steady.query _).bind fun rounds ↦ steady_filePasses i rounds.toNat

end Runners

/-! ## Stoppers and transitions -/

section Visits

variable (i : Slot)

theorem steady_closePcapHandle : (closePcapHandle i).Steady := by
  refine (steady_readSession i _).bind fun handle ↦ ?_
  cases handle with
  | none => exact .pure ()
  | some handle => exact (steady_close _).bind fun _ ↦ steady_modifySession i _

theorem steady_closePcapDumper : (closePcapDumper i).Steady := by
  have hforget : (modifySession i ({ · with pcapDumper := none })).Steady := .modify _
  refine (steady_readSession i _).bind fun dumper ↦ ?_
  cases dumper with
  | none => exact hforget
  | some dumper =>
    refine (steady_iotestsFdOpen _ _).bind fun _ ↦ .ite ?_ hforget
    refine (steady_iotestsFdOpen _ _).bind fun _ ↦ .ite ?_ (hforget.bind fun _ ↦ hforget)
    exact (Prog.Steady.modify _).bind fun _ ↦ hforget.bind fun _ ↦ hforget

theorem steady_closeFd (fd : ℤ) :
    (do close fd; modifySession i ({ · with fd := 0 }) : SessionProg Unit).Steady :=
  (steady_close fd).bind fun _ ↦ steady_modifySession i _

theorem steady_closeOpenFd : (closeOpenFd i).Steady := by
  refine (steady_readSession i _).bind fun fd ↦ .ite ?_ (steady_modifySession i _)
  exact (steady_iotestsFdOpen _ _).bind fun _ ↦
    .ite (steady_closeFd i fd) (steady_modifySession i _)

theorem steady_closeMonitor : (closeMonitor i).Steady := by
  refine (steady_readSession i _).bind fun monitor ↦ ?_
  cases monitor with
  | none => exact .pure ()
  | some monitor => exact steady_modifySession i _

theorem steady_restartUnlessAborting : (restartUnlessAborting i).Steady :=
  (steady_readSession i _).bind fun _ ↦ .ite (steady_changeState i _) (steady_changeState i _)

/-- The stoppers differ in what they close; each of them only polls, closes and assigns. -/
theorem steady_stopper (m : Module) : (stopper m i).Steady := by
  have hrestart := steady_restartUnlessAborting i
  have hfinish : (do closeMonitor i; restartUnlessAborting i : SessionProg Unit).Steady :=
    (steady_closeMonitor i).bind fun _ ↦ hrestart
  cases m with
  | client =>
    exact (steady_closePcapHandle i).bind fun _ ↦ (steady_closeOpenFd i).bind fun _ ↦ hfinish
  | clientconn =>
    refine (Prog.Steady.modify _).bind fun _ ↦ (steady_closePcapDumper i).bind fun _ ↦
      (steady_closePcapHandle i).bind fun _ ↦ (steady_closeOpenFd i).bind fun _ ↦ ?_
    exact (steady_closeMonitor i).bind fun _ ↦ steady_changeState i _
  | merger =>
    refine (steady_closePcapDumper i).bind fun _ ↦ (steady_closePcapHandle i).bind fun _ ↦
      (steady_closeOpenFd i).bind fun _ ↦ (steady_readSession i _).bind fun fd ↦ .ite ?_ hfinish
    exact (steady_closeFd i fd).bind fun _ ↦ hfinish
  | server =>
    refine (steady_readSession i _).bind fun fd ↦ .ite ?_ hrestart
    exact (steady_closeFd i fd).bind fun _ ↦ hrestart
  | livecapture => exact (steady_closePcapHandle i).bind fun _ ↦ hfinish
  | filecapture =>
    refine (steady_closePcapHandle i).bind fun _ ↦ (steady_closeMonitor i).bind fun _ ↦
      (steady_readSession i _).bind fun state ↦ .ite (steady_changeState i _) ?_
    exact (steady_readSession i _).bind fun iterations ↦
      .ite (steady_changeState i _) (steady_changeState i _)

/-- The wait for the thread of the session is not in the program: the join is a statement that the
configuration lets the supervisor execute once the thread has returned. -/
theorem steady_pcapsessionStop : (pcapsessionStop i).Steady := by
  have hrelease : (do
      if (← readSession i (·.state)) = .stopped then
        pcapsessionChangeState i .unused : SessionProg Unit).Steady :=
    (steady_readSession i _).bind fun _ ↦ .ite (steady_changeState i _) (.pure ())
  have hrest : (stopAndRelease i).Steady := by
    refine (steady_readSession i _).bind fun m ↦ ?_
    cases m with
    | none => exact Prog.Steady.stuck.bind fun _ ↦ hrelease
    | some m => exact (steady_stopper i m).bind fun _ ↦ hrelease
  refine (steady_readSession i _).bind fun thread ↦ .ite ?_ hrest
  exact (Prog.Steady.modify _).bind fun _ ↦ (Prog.Steady.modify _).bind fun _ ↦
    (steady_modifySession i _).bind fun _ ↦ hrest

theorem steady_pcapsessionStart : (pcapsessionStart i).Steady := by
  refine (steady_readSession i _).bind fun state ↦ .ite (.pure false) (Prog.Steady.bind ?_
    fun _ ↦ .pure _)
  refine (Prog.Steady.query _).bind fun result ↦ (steady_readSession i _).bind fun m ↦ ?_
  cases m with
  | none => exact Prog.Steady.stuck.bind fun _ ↦ .pure _
  | some m => exact .ite ((Prog.Steady.modify _).bind fun _ ↦ .pure _) (.pure _)

theorem steady_transitionFrom (state : SessionState) : (transitionFrom i state).Steady := by
  have hcount : ∀ {timedOut : SessionProg Unit}, timedOut.Steady →
      (countInterval i timedOut).Steady := fun h ↦
    (steady_readSession i _).bind fun _ ↦ .ite h (steady_modifySession i _)
  have horder : ∀ newState, (orderStop i newState).Steady := fun newState ↦
    (steady_changeState i newState).bind fun _ ↦ (steady_modifySession i _).bind fun _ ↦
      steady_pcapsessionStop i
  have htimeout := hcount ((steady_changeState i .stopped).bind fun _ ↦ steady_pcapsessionStop i)
  cases state with
  | unused => exact .pure ()
  | stopped => exact .pure ()
  | start =>
    exact (steady_changeState i _).bind fun _ ↦ (steady_modifySession i _).bind fun _ ↦
      (steady_pcapsessionStart i).bind fun _ ↦ .pure ()
  | starting => exact hcount (steady_changeState i _)
  | running => exact .pure ()
  | terminate => exact horder .terminating
  | abort => exact horder .aborting
  | terminating => exact htimeout
  | aborting => exact htimeout

theorem steady_orderAbort : (orderAbort i).Steady := by
  refine (Prog.Steady.read _).bind fun _ ↦ .ite ?_ (.pure ())
  refine (steady_readSession i _).bind fun _ ↦ .ite ?_ (.pure ())
  exact (steady_readSession i _).bind fun _ ↦ .ite (steady_changeState i _) (.pure ())

theorem steady_checkDescriptor : (checkDescriptor i).Steady := by
  refine (steady_readSession i _).bind fun _ ↦ .ite ?_ (.pure ())
  refine (steady_readSession i _).bind fun _ ↦ .ite ?_ (.pure ())
  refine (steady_readSession i _).bind fun _ ↦ (steady_iotestsFdOpen _ _).bind fun _ ↦ ?_
  exact .ite (steady_changeState i _) (.pure ())

/-- The report, which interferes with the counters but locks nothing. -/
theorem steady_superviseMonitor : (superviseMonitor i).Steady := by
  have hmonitor : ∀ f, (modifyMonitor i f).Steady := fun _ ↦ .modify _
  refine (steady_readSession i _).bind fun monitor ↦ ?_
  cases monitor with
  | none => exact .pure ()
  | some monitor =>
    refine (Prog.Steady.query _).bind fun currentTime ↦ (Prog.Steady.modify _).bind fun _ ↦
      (Prog.Steady.read _).bind fun tick ↦ (steady_readSession i _).bind fun monitor ↦ ?_
    cases monitor with
    | none => exact .stuck
    | some monitor =>
      refine .ite ((Prog.Steady.modify _).bind fun _ ↦ ?_) (.pure ())
      unfold clearMonitor
      iterate 7 refine (hmonitor _).bind fun _ ↦ ?_
      exact hmonitor _

end Visits

end DistributorMerger
