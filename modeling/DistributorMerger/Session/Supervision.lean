import DistributorMerger.Concurrency.Triple
import DistributorMerger.Session.Stop

/-!
# Session handling and supervision

The supervisor goes round the session list and visits every slot that is in use: it orders an abort
when session handling is shutting down, orders termination when the session's descriptor is lost,
makes the transition that the session's state asks for, flushes an idle dumper and reports the
monitor. A stop that is ordered is carried out in the same visit: the session's thread is cancelled
and joined, and the stopper decides what becomes of the session.

The loop body of `pcapsession_supervision_run` is `superviseSession`; its parts are named for what
they do.
-/

namespace DistributorMerger

/-! ## Slots -/

/-- The scan for an empty session slot. -/
def findUnused : List Slot → SessionProg (Option Slot)
  | [] => pure none
  | i :: slots => do
    if (← readSession i (·.state)) = .unused then pure (some i) else findUnused slots

/-- `pcapsession_handling_get_new`. -/
def pcapsessionHandlingGetNew : SessionProg (Option Slot) := do
  match ← findUnused (List.finRange pcapSessionMaxSessions) with
  | none => pure none
  | some i =>
    modifySession i fun _ ↦ Session.zero
    modifySession i ({ · with id := i })
    modifySession i ({ · with pcapMutex := none })
    pcapsessionChangeState i .stopped
    pure (some i)

/-- `pcapsession_handling_add`, whose test of the slot number always succeeds. -/
def pcapsessionHandlingAdd (i : Slot) : SessionProg Bool := do
  pcapsessionChangeState i .start
  modifySession i ({ · with id := i })
  pure true

/-- `pcapsession_handling_close`. -/
def pcapsessionHandlingClose : SessionProg Unit :=
  Prog.modify fun w ↦ { w with handlingState := .terminating }

/-! ## Threads -/

/-- A thread is created for slot `i`: the session's runner is noted with it. -/
def World.createThread (w : World) (i : Slot) (m : Module) : World :=
  { w with
    threads := Function.update w.threads w.nextThread (some (i, m))
    nextThread := w.nextThread + 1 }.modifySession i ({ · with thread := w.nextThread })

/-- `pthread_cancel`, which asks the thread to end and does not wait. -/
def World.cancelThread (w : World) (thread : ℕ) : World :=
  { w with cancelled := Function.update w.cancelled thread true }

/-- `pthread_join`: the thread is gone when the call returns. -/
def World.joinThread (w : World) (thread : ℕ) : World :=
  { w with threads := Function.update w.threads thread none }

theorem World.threads_joinThread (w : World) (thread t : ℕ) :
    (w.joinThread thread).threads t = if t = thread then none else w.threads t :=
  Function.update_apply ..

theorem World.threads_createThread (w : World) (i : Slot) (m : Module) (t : ℕ) :
    (w.createThread i m).threads t = if t = w.nextThread then some (i, m) else w.threads t :=
  Function.update_apply ..

theorem World.session_createThread_self (w : World) (i : Slot) (m : Module) :
    (w.createThread i m).session i = { w.session i with thread := w.nextThread } :=
  World.session_modifySession_self ..

theorem World.session_createThread_of_ne (w : World) {i j : Slot} (m : Module) (hj : j ≠ i) :
    (w.createThread i m).session j = w.session j := World.session_modifySession_of_ne _ hj _

theorem World.state_createThread (w : World) (i j : Slot) (m : Module) :
    ((w.createThread i m).session j).state = (w.session j).state := by
  by_cases hj : j = i
  · rw [hj, World.session_createThread_self]
  · rw [World.session_createThread_of_ne _ _ hj]

/-- `pthread_create` for the session's runner. A call that fails changes nothing. -/
def pthreadCreate (i : Slot) : SessionProg ℤ := do
  let result ← Prog.query (.pthreadCreate i)
  match ← readSession i (·.module) with
  | none => Prog.stuck
  | some m =>
    if result = 0 then
      Prog.modify fun w ↦ w.createThread i m
  pure result

/-- `pcapsession_start`. -/
def pcapsessionStart (i : Slot) : SessionProg Bool := do
  if (← readSession i (·.state)) ≠ .starting then
    pure false
  else
    let result ← pthreadCreate i
    pure (decide (result = 0))

/-- `pcapsession_stop`. -/
def pcapsessionStop (i : Slot) : SessionProg Unit := do
  let thread ← readSession i (·.thread)
  if thread ≠ 0 then
    Prog.modify fun w ↦ w.cancelThread thread
    Prog.modify fun w ↦ w.joinThread thread
    modifySession i ({ · with thread := 0 })
  -- a session without a module has no `stopper` to call
  match ← readSession i (·.module) with
  | none => Prog.stuck
  | some m => stopper m i
  if (← readSession i (·.state)) = .stopped then
    pcapsessionChangeState i .unused

/-- The part of `pcapsession_stop` behind the join. -/
def stopAndRelease (i : Slot) : SessionProg Unit := do
  match ← readSession i (·.module) with
  | none => Prog.stuck
  | some m => stopper m i
  if (← readSession i (·.state)) = .stopped then
    pcapsessionChangeState i .unused

/-! ## Transitions -/

/-- Set a state that a stop is carried out in, and carry it out. -/
def orderStop (i : Slot) (newState : SessionState) : SessionProg Unit := do
  pcapsessionChangeState i newState
  modifySession i ({ · with intervalCounter := 0 })
  pcapsessionStop i

/-- Count an interval spent in a transition, or do `timedOut` when there have been too many. -/
def countInterval (i : Slot) (timedOut : SessionProg Unit) : SessionProg Unit := do
  if (← readSession i (·.intervalCounter)) ≥ pcapSessionSupervisionTransitionIntervals then
    timedOut
  else
    modifySession i fun s ↦ { s with intervalCounter := s.intervalCounter + 1 }

/-- `pcapsession_transition_session`. -/
def pcapsessionTransitionSession (i : Slot) : SessionProg Unit := do
  match ← readSession i (·.state) with
  | .unused | .stopped => pure ()
  | .start =>
    pcapsessionChangeState i .starting
    modifySession i ({ · with intervalCounter := 0 })
    let _ ← pcapsessionStart i
  -- a start that times out is turned into a termination
  | .starting => countInterval i (pcapsessionChangeState i .terminate)
  | .running => pure ()
  | .terminate => orderStop i .terminating
  | .abort => orderStop i .aborting
  -- a stop that times out is made for good, whatever the stopper would restart
  | .terminating | .aborting =>
    countInterval i do
      pcapsessionChangeState i .stopped
      pcapsessionStop i

/-- The cases of `pcapsession_transition_session`. -/
def transitionFrom (i : Slot) : SessionState → SessionProg Unit
  | .unused | .stopped | .running => pure ()
  | .start => do
    pcapsessionChangeState i .starting
    modifySession i ({ · with intervalCounter := 0 })
    let _ ← pcapsessionStart i
  | .starting => countInterval i (pcapsessionChangeState i .terminate)
  | .terminate => orderStop i .terminating
  | .abort => orderStop i .aborting
  | .terminating | .aborting =>
    countInterval i do
      pcapsessionChangeState i .stopped
      pcapsessionStop i

theorem pcapsessionTransitionSession_eq (i : Slot) :
    pcapsessionTransitionSession i = readSession i (·.state) >>= transitionFrom i := by
  rw [pcapsessionTransitionSession]
  congr 1
  funext state
  cases state <;> rfl

/-! ## Visits -/

/-- While session handling is shutting down, a session that is not stopped or aborting yet is
ordered to abort. -/
def orderAbort (i : Slot) : SessionProg Unit := do
  if (← Prog.read (·.handlingState)) ≠ .running then
    if (← readSession i (·.state)) ≠ .stopped then
      if (← readSession i (·.state)) ≠ .aborting then
        pcapsessionChangeState i .abort

/-- A session whose supervised descriptor is lost is ordered to terminate. Descriptors 0 to 2 are
not looked at. -/
def checkDescriptor (i : Slot) : SessionProg Unit := do
  if ← readSession i (·.superviseFd) then
    if (← readSession i (·.fd)) > 2 then
      let fd ← readSession i (·.fd)
      -- the descriptor is read a second time for the call
      if !(← iotestsFdOpen (.pollSupervised i) fd) then
        pcapsessionChangeState i .terminate

/-- Lock a session's dumper. -/
def lockPcapMutex (me : Agent) (i : Slot) : SessionProg Unit :=
  Prog.await (fun w ↦ (w.session i).pcapMutex.isNone)
    fun w ↦ w.modifySession i ({ · with pcapMutex := some me })

/-- Unlock a session's dumper. -/
def unlockPcapMutex (i : Slot) : SessionProg Unit := modifySession i ({ · with pcapMutex := none })

/-- Flush the dumper when nothing has been written lately. The flush itself moves no chunk: what a
dumper has accepted counts as written. -/
def flushIdleDumper (i : Slot) : SessionProg Unit := do
  match ← readSession i (·.monitor) with
  | none => pure ()
  | some _ =>
    if (← readSession i (·.pcapDumper)).isSome then
      -- `pcap_dump_flush` stands between the lock and the unlock
      if (← readSession i (fun s ↦ s.monitor.map (·.bytes))) = some 0 then
        lockPcapMutex .supervisor i
        unlockPcapMutex i

/-- Assign to the monitor of a session. -/
def modifyMonitor (i : Slot) (f : Monitor → Monitor) : SessionProg Unit :=
  modifySession i fun s ↦ { s with monitor := s.monitor.map f }

/-- The statements of `handle_monitor` that clear a monitor which has been reported, one by one. -/
def clearMonitor (i : Slot) (lastOutputTime : ℤ) : SessionProg Unit := do
  modifyMonitor i ({ · with lastOutputTime := lastOutputTime })
  modifyMonitor i ({ · with bytes := 0 })
  modifyMonitor i ({ · with packets := 0 })
  modifyMonitor i ({ · with gtpBytes := 0 })
  modifyMonitor i ({ · with gtpPackets := 0 })
  modifyMonitor i ({ · with gtpExt := 0 })
  modifyMonitor i ({ · with gtpSeqno := 0 })
  modifyMonitor i ({ · with gtpNpdu := 0 })

/-- `handle_monitor`, in the supervisor's source file. The rates it prints are left out. -/
def handleMonitor (i : Slot) : SessionProg Unit := do
  let currentTime ← Prog.query .time
  Prog.modify fun w ↦
    { w with
      monitorLastOutputTime := Function.update w.monitorLastOutputTime none
        (nextTick (w.monitorLastOutputTime none) currentTime) }
  let tick ← Prog.read fun w ↦ w.monitorLastOutputTime none
  match ← readSession i (·.monitor) with
  | none => Prog.stuck
  | some monitor =>
    if monitor.lastOutputTime < tick then
      Prog.modify fun w ↦ { w with reports := w.reports ++ (w.session i).monitor.toList }
      clearMonitor i tick

/-- Report the monitor, if there is one. -/
def superviseMonitor (i : Slot) : SessionProg Unit := do
  match ← readSession i (·.monitor) with
  | none => pure ()
  | some _ => handleMonitor i

/-- The loop body of `pcapsession_supervision_run` for slot `i`; the result says whether the
session was counted. -/
def superviseSession (i : Slot) : SessionProg Bool := do
  if (← readSession i (·.state)) = .unused then
    pure false
  else
    orderAbort i
    checkDescriptor i
    pcapsessionTransitionSession i
    if (← readSession i (·.state)) = .running then
      flushIdleDumper i
      superviseMonitor i
    pure true

/-- The `for` loop of `pcapsession_supervision_run`: the number of sessions counted. -/
def superviseSessions : List Slot → SessionProg ℕ
  | [] => pure 0
  | i :: slots => do
    let counted ← superviseSession i
    let sessioncount ← superviseSessions slots
    pure (if counted then sessioncount + 1 else sessioncount)

/-- The `while` loop of `pcapsession_supervision_run`, for at most `rounds` rounds; the result says
whether it returned. -/
def pcapsessionSupervisionRun : ℕ → SessionProg Bool
  | 0 => pure false
  | rounds + 1 => do
    let sessioncount ← superviseSessions (List.finRange pcapSessionMaxSessions)
    let state ← Prog.read (·.handlingState)
    if sessioncount = 0 ∧ state ≠ .running then
      Prog.modify fun w ↦ { w with handlingState := .stopped }
      pure true
    else pcapsessionSupervisionRun rounds

/-! ## What tending a session does -/

theorem within_iotestsFdOpen {G : World → World → Prop} [Std.Refl G] (q : Query) (fd : ℤ) :
    (iotestsFdOpen q fd).Within G := (Prog.Within.query _).bind fun _ ↦ .read _

/-- A step changes nothing but monitors, dumper locks and what is reported. -/
structure Tends (w w' : World) : Prop where
  /-- What is shared. -/
  rest : w' = { w with session := w'.session,
                       monitorLastOutputTime := w'.monitorLastOutputTime, reports := w'.reports }
  /-- What belongs to a session. -/
  session : ∀ j, (w.session j).Unmoved (w'.session j)

instance : Std.Refl Tends := ⟨fun _ ↦ ⟨rfl, fun _ ↦ rfl⟩⟩

theorem Tends.trans {w w' w'' : World} (h : Tends w w') (h' : Tends w' w'') : Tends w w'' := by
  refine ⟨?_, fun j ↦ (h.session j).trans (h'.session j)⟩
  rw [h'.rest, h.rest]

instance : IsTrans World Tends := ⟨fun _ _ _ ↦ Tends.trans⟩

theorem tends_modifySession (w : World) (i : Slot) {f : Session → Session}
    (hf : ∀ s, f s = { s with monitor := (f s).monitor, pcapMutex := (f s).pcapMutex }) :
    Tends w (w.modifySession i f) := by
  refine ⟨rfl, fun j ↦ ?_⟩
  by_cases hj : j = i
  · rw [hj, World.session_modifySession_self]
    exact hf _
  · exact w.unmoved_modifySession_of_ne hj f

theorem within_modifyMonitor (i : Slot) (f : Monitor → Monitor) :
    (modifyMonitor i f).Within Tends := .modify fun w ↦ tends_modifySession w i fun _ ↦ rfl

theorem within_clearMonitor (i : Slot) (lastOutputTime : ℤ) :
    (clearMonitor i lastOutputTime).Within Tends := by
  unfold clearMonitor
  iterate 7 refine (within_modifyMonitor i _).bind fun _ ↦ ?_
  exact within_modifyMonitor i _

theorem within_flushIdleDumper (i : Slot) : (flushIdleDumper i).Within Tends := by
  refine (Prog.Within.read _).bind fun monitor ↦ ?_
  cases monitor with
  | none => exact .pure ()
  | some monitor =>
    refine (Prog.Within.read _).bind fun dumper ↦ .ite ?_ (.pure ())
    refine (Prog.Within.read _).bind fun bytes ↦ .ite ?_ (.pure ())
    refine (Prog.Within.await fun w _ ↦ ?_).bind fun _ ↦ .modify fun w ↦ ?_
    · exact tends_modifySession w i fun _ ↦ rfl
    · exact tends_modifySession w i fun _ ↦ rfl

theorem within_superviseMonitor (i : Slot) : (superviseMonitor i).Within Tends := by
  refine (Prog.Within.read _).bind fun monitor ↦ ?_
  cases monitor with
  | none => exact .pure ()
  | some monitor =>
    refine (Prog.Within.query _).bind fun currentTime ↦ ?_
    refine (Prog.Within.modify fun w ↦ ⟨rfl, fun _ ↦ rfl⟩).bind fun _ ↦ ?_
    refine (Prog.Within.read _).bind fun tick ↦ (Prog.Within.read _).bind fun monitor ↦ ?_
    cases monitor with
    | none => exact .stuck
    | some monitor =>
      refine .ite ?_ (.pure ())
      exact (Prog.Within.modify fun w ↦ ⟨rfl, fun _ ↦ rfl⟩).bind fun _ ↦ within_clearMonitor i tick

end DistributorMerger
