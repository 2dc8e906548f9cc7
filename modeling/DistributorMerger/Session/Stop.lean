import DistributorMerger.Session.World

/-!
# Stopping sessions

Each module has a stopper, which the supervisor calls after the session's thread has been joined.
The stoppers are put together from a few passages that recur word for word in the source: close the
capture handle, close the dumper, close the descriptor, free the monitor, and decide between
stopping for good and asking for a restart.

Two of these passages look at the descriptor before they close it, and skip the close when `poll`
reports anything. A hang-up on a descriptor that is still open is such a report.
-/

namespace DistributorMerger

/-! ## Recurring passages -/

/-- Close the capture handle, if there is one. -/
def closePcapHandle (i : Slot) : SessionProg Unit := do
  match ← readSession i (·.pcapHandle) with
  | none => pure ()
  | some handle =>
    close handle.fd
    modifySession i ({ · with pcapHandle := none })

/-- Close the dumper, if there is one and its descriptor seems open, and forget it. -/
def closePcapDumper (i : Slot) : SessionProg Unit := do
  match ← readSession i (·.pcapDumper) with
  | none => pure ()
  | some dumper =>
    -- both looks are `poll` calls of their own, whose answers may differ
    if ← iotestsFdOpen (.pollDumper i) dumper.fd then
      if ← iotestsFdOpen (.pollDumperAgain i) dumper.fd then
        Prog.modify (·.closeDumper dumper)
      -- the dumper is forgotten also when the second look keeps it from being closed
      modifySession i ({ · with pcapDumper := none })
  modifySession i ({ · with pcapDumper := none })

/-- Close the session's descriptor, if it is set and seems open, and clear it. -/
def closeOpenFd (i : Slot) : SessionProg Unit := do
  -- zero stands for no descriptor
  let fd ← readSession i (·.fd)
  if fd > 0 then
    if ← iotestsFdOpen (.pollStop i) fd then
      close fd
  modifySession i ({ · with fd := 0 })

/-- Free the monitor. -/
def closeMonitor (i : Slot) : SessionProg Unit := do
  match ← readSession i (·.monitor) with
  | none => pure ()
  | some _ => modifySession i ({ · with monitor := none })

/-- Stop for good on abort, else ask for a restart. -/
def restartUnlessAborting (i : Slot) : SessionProg Unit := do
  -- on abort, always stop
  if (← readSession i (·.state)) = .aborting then
    pcapsessionChangeState i .stopped
  else
    pcapsessionChangeState i .start

/-! ## The stoppers -/

/-- `pcapsession_client_stop`. -/
def pcapsessionClientStop (i : Slot) : SessionProg Unit := do
  closePcapHandle i
  closeOpenFd i
  closeMonitor i
  restartUnlessAborting i

/-- `pcapsession_clientconn_stop`. -/
def pcapsessionClientconnStop (i : Slot) : SessionProg Unit := do
  Prog.modify (·.unlist i)
  closePcapDumper i
  closePcapHandle i
  closeOpenFd i
  closeMonitor i
  pcapsessionChangeState i .stopped

/-- `pcapsession_merger_stop`. The second test of the descriptor comes after it has been
cleared. -/
def pcapsessionMergerStop (i : Slot) : SessionProg Unit := do
  closePcapDumper i
  closePcapHandle i
  closeOpenFd i
  -- never taken: `closeOpenFd` has just set the descriptor to zero
  let fd ← readSession i (·.fd)
  if fd > 0 then
    close fd
    modifySession i ({ · with fd := 0 })
  closeMonitor i
  restartUnlessAborting i

/-- `pcapsession_server_stop`, with `close_server_socket` in its place. -/
def pcapsessionServerStop (i : Slot) : SessionProg Unit := do
  let fd ← readSession i (·.fd)
  if fd > 0 then
    close fd
    modifySession i ({ · with fd := 0 })
  restartUnlessAborting i

/-- `pcapsession_livecapture_stop`. -/
def pcapsessionLivecaptureStop (i : Slot) : SessionProg Unit := do
  closePcapHandle i
  closeMonitor i
  restartUnlessAborting i

/-- `pcapsession_filecapture_stop`, which also stops for good when no pass is left. -/
def pcapsessionFilecaptureStop (i : Slot) : SessionProg Unit := do
  closePcapHandle i
  closeMonitor i
  if (← readSession i (·.state)) = .aborting then
    pcapsessionChangeState i .stopped
  -- no pass is left
  else if (← readSession i (·.iterations)) = 0 then
    pcapsessionChangeState i .stopped
  else
    pcapsessionChangeState i .start

/-- `stopper`. -/
def stopper : Module → Slot → SessionProg Unit
  | .client => pcapsessionClientStop
  | .clientconn => pcapsessionClientconnStop
  | .merger => pcapsessionMergerStop
  | .server => pcapsessionServerStop
  | .livecapture => pcapsessionLivecaptureStop
  | .filecapture => pcapsessionFilecaptureStop

/-! ## What the passages do on their own -/

section Exec

variable (answer : Query → ℤ) (i : Slot) (w : World)

/-- The descriptor of the capture handle. -/
def Session.handleFds (s : Session) : Finset ℤ := (s.pcapHandle.map (·.fd)).toFinset

/-- The descriptor of the dumper, when both looks at it find it open. -/
def World.dumperFds : Finset ℤ :=
  match (w.session i).pcapDumper with
  | none => ∅
  | some dumper =>
    if w.seemsOpen (answer (.pollDumper i)) dumper.fd ∧
        w.seemsOpen (answer (.pollDumperAgain i)) dumper.fd then {dumper.fd} else ∅

/-- The stream of the dumper, when both looks at its descriptor find it open. -/
def World.dumperIds : Finset ℕ :=
  match (w.session i).pcapDumper with
  | none => ∅
  | some dumper =>
    if w.seemsOpen (answer (.pollDumper i)) dumper.fd ∧
        w.seemsOpen (answer (.pollDumperAgain i)) dumper.fd then {dumper.id} else ∅

/-- The descriptor of the session, when it is set and the look at it finds it open. -/
def World.sessionFds : Finset ℤ :=
  if 0 < (w.session i).fd ∧ w.seemsOpen (answer (.pollStop i)) (w.session i).fd
  then {(w.session i).fd} else ∅

theorem exec_closePcapHandle :
    (closePcapHandle i).exec answer w
      = some ((), (w.closeAll (w.session i).handleFds).modifySession i
          ({ · with pcapHandle := none })) := by
  unfold closePcapHandle Session.handleFds
  cases h : (w.session i).pcapHandle with
  | none =>
    simp only [Prog.exec_bind, exec_readSession, Option.bind_some, h, Prog.exec_pure,
      Option.map_none, Option.toFinset_none, World.closeAll_empty]
    rw [World.modifySession_of_eq]
    rw [← h]
  | some handle =>
    simp only [Prog.exec_bind, exec_readSession, Option.bind_some, h, exec_close,
      exec_modifySession, Option.map_some, Option.toFinset_some, World.close_eq_closeAll]

theorem exec_closePcapDumper :
    (closePcapDumper i).exec answer w
      = some ((), ((w.closeAll (w.dumperFds answer i)).shutAll (w.dumperIds answer i)).modifySession
          i ({ · with pcapDumper := none })) := by
  unfold closePcapDumper World.dumperFds World.dumperIds
  cases h : (w.session i).pcapDumper with
  | none =>
    simp only [Prog.exec_bind, exec_readSession, Option.bind_some, h,
      exec_modifySession, World.closeAll_empty, World.shutAll_empty]
  | some dumper =>
    by_cases h₁ : w.seemsOpen (answer (.pollDumper i)) dumper.fd
    · by_cases h₂ : w.seemsOpen (answer (.pollDumperAgain i)) dumper.fd
      · simp [h, h₁, h₂, World.closeDumper_eq]
      · simp [h, h₁, h₂]
    · simp [h, h₁]

theorem exec_closeOpenFd :
    (closeOpenFd i).exec answer w
      = some ((), (w.closeAll (w.sessionFds answer i)).modifySession i ({ · with fd := 0 })) := by
  unfold closeOpenFd World.sessionFds
  by_cases h₁ : 0 < (w.session i).fd
  · by_cases h₂ : w.seemsOpen (answer (.pollStop i)) (w.session i).fd
    · simp [h₁, h₂, World.close_eq_closeAll]
    · simp [h₁, h₂]
  · simp [h₁]

theorem exec_closeMonitor :
    (closeMonitor i).exec answer w
      = some ((), w.modifySession i ({ · with monitor := none })) := by
  unfold closeMonitor
  cases h : (w.session i).monitor with
  | none =>
    simp only [Prog.exec_bind, exec_readSession, Option.bind_some, h, Prog.exec_pure]
    rw [World.modifySession_of_eq]
    rw [← h]
  | some monitor => simp [h]

theorem exec_restartUnlessAborting :
    (restartUnlessAborting i).exec answer w
      = some ((), w.modifySession i fun s ↦
          { s with state := if s.state = .aborting then .stopped else .start }) := by
  unfold restartUnlessAborting
  by_cases h : (w.session i).state = .aborting
  · simp [h, World.modifySession]
  · simp [h, World.modifySession]

theorem World.sessionFds_modifySession {f : Session → Session}
    (hf : (f (w.session i)).fd = (w.session i).fd) :
    (w.modifySession i f).sessionFds answer i = w.sessionFds answer i := by
  rw [World.sessionFds, World.session_modifySession_self, hf]
  rfl

/-- The three closing passages that the client connection and the merger have in common. -/
theorem exec_closeDumperHandleFd :
    (do closePcapDumper i; closePcapHandle i; closeOpenFd i : SessionProg Unit).exec answer w
      = some ((), ((w.closeAll (w.dumperFds answer i ∪ (w.session i).handleFds
          ∪ (w.closeAll (w.dumperFds answer i ∪ (w.session i).handleFds)).sessionFds answer i)
        ).shutAll (w.dumperIds answer i)).modifySession i
          ({ · with pcapDumper := none, pcapHandle := none, fd := 0 })) := by
  have hhandle : ((((w.closeAll (w.dumperFds answer i)).shutAll
      (w.dumperIds answer i)).modifySession i ({ · with pcapDumper := none })).session i).handleFds
        = (w.session i).handleFds := by
    rw [World.session_modifySession_self]
    rfl
  have hfds : ∀ fds, ((w.closeAll fds).shutAll (w.dumperIds answer i)).sessionFds answer i
      = (w.closeAll fds).sessionFds answer i := fun _ ↦ rfl
  simp only [Prog.exec_bind, exec_closePcapDumper, exec_closePcapHandle, exec_closeOpenFd,
    Option.bind_some, hhandle, World.modifySession_closeAll, World.closeAll_closeAll,
    World.shutAll_closeAll, World.modifySession_modifySession]
  rw [World.sessionFds_modifySession _ _ _ rfl, hfds, Finset.union_assoc]

/-! ## What the stoppers do on their own -/

/-- The state that a stopper leaves behind: a client connection stops for good, and so does a file
capture without passes left; any other session is restarted unless it is aborted. -/
def Session.stateAfterStop (s : Session) : Module → SessionState
  | .clientconn => .stopped
  | .filecapture => if s.state = .aborting ∨ s.iterations = 0 then .stopped else .start
  | _ => if s.state = .aborting then .stopped else .start

/-- What a stopper makes of its session. -/
def Session.afterStop (s : Session) (m : Module) : Session :=
  let s' := { s with state := s.stateAfterStop m }
  match m with
  | .client => { s' with pcapHandle := none, fd := 0, monitor := none }
  | .clientconn | .merger =>
    { s' with pcapDumper := none, pcapHandle := none, fd := 0, monitor := none }
  | .server => { s' with fd := if s.fd > 0 then 0 else s.fd }
  | .livecapture | .filecapture => { s' with pcapHandle := none, monitor := none }

theorem Session.state_afterStop (s : Session) (m : Module) :
    (s.afterStop m).state = s.stateAfterStop m := by
  cases m <;> rfl

theorem Session.stateAfterStop_cases (s : Session) (m : Module) :
    s.stateAfterStop m = .stopped ∨ s.stateAfterStop m = .start := by
  unfold Session.stateAfterStop
  cases m with
  | clientconn => exact .inl rfl
  | _ =>
    dsimp only
    split
    · exact .inl rfl
    · exact .inr rfl

/-- The descriptors that a stopper closes. -/
def World.stopFds : Module → Finset ℤ
  | .client =>
    (w.session i).handleFds ∪ (w.closeAll (w.session i).handleFds).sessionFds answer i
  | .clientconn | .merger =>
    w.dumperFds answer i ∪ (w.session i).handleFds
      ∪ (w.closeAll (w.dumperFds answer i ∪ (w.session i).handleFds)).sessionFds answer i
  | .server => if (w.session i).fd > 0 then {(w.session i).fd} else ∅
  | .livecapture | .filecapture => (w.session i).handleFds

/-- The streams whose dumper a stopper closes. -/
def World.stopDumpers : Module → Finset ℕ
  | .clientconn | .merger => w.dumperIds answer i
  | _ => ∅

/-- The world after a stopper: it closes its descriptors, and a client connection leaves the
list. -/
def World.afterStop (m : Module) : World :=
  (((if m = .clientconn then w.unlist i else w).closeAll (w.stopFds answer i m)).shutAll
    (w.stopDumpers answer i m)).modifySession i (·.afterStop m)

theorem World.afterStop_of_ne (m : Module) (hconn : m ≠ .clientconn) (hmerger : m ≠ .merger) :
    w.afterStop answer i m = (w.closeAll (w.stopFds answer i m)).modifySession i
      (·.afterStop m) := by
  have hids : w.stopDumpers answer i m = ∅ := by
    cases m <;> first | rfl | contradiction
  rw [World.afterStop, hids, World.shutAll_empty, if_neg hconn]

/-- A stopper on its own always comes to an end. -/
theorem exec_stopper (m : Module) :
    (stopper m i).exec answer w = some ((), w.afterStop answer i m) := by
  cases m with
  | client =>
    simp only [stopper, pcapsessionClientStop, Prog.exec_bind, exec_closePcapHandle,
      exec_closeOpenFd, exec_closeMonitor, exec_restartUnlessAborting, Option.bind_some]
    rw [World.sessionFds_modifySession _ _ _ rfl]
    simp only [World.modifySession_closeAll, World.closeAll_closeAll,
      World.modifySession_modifySession]
    rw [World.afterStop_of_ne _ _ _ .client (by decide) (by decide)]
    rfl
  | clientconn =>
    have hstop : pcapsessionClientconnStop i = (do
        Prog.modify (·.unlist i)
        (do closePcapDumper i; closePcapHandle i; closeOpenFd i)
        closeMonitor i
        pcapsessionChangeState i .stopped) := by
      simp only [pcapsessionClientconnStop, bind_assoc]
    simp only [stopper, hstop, Prog.exec_bind answer (Prog.modify _), Prog.exec_modify,
      Option.bind_some]
    rw [Prog.exec_bind, exec_closeDumperHandleFd]
    simp only [Option.bind_some, Prog.exec_bind, exec_closeMonitor, exec_pcapsessionChangeState,
      World.modifySession_modifySession]
    rfl
  | merger =>
    have hstop : pcapsessionMergerStop i = (do
        (do closePcapDumper i; closePcapHandle i; closeOpenFd i)
        let fd ← readSession i (·.fd)
        if fd > 0 then
          close fd
          modifySession i ({ · with fd := 0 })
        closeMonitor i
        restartUnlessAborting i) := by
      simp only [pcapsessionMergerStop, bind_assoc]
    rw [stopper, hstop, Prog.exec_bind, exec_closeDumperHandleFd]
    simp only [Option.bind_some, Prog.exec_bind, exec_readSession, Prog.exec_ite,
      World.session_modifySession_self, gt_iff_lt, lt_irrefl, if_false, exec_closeMonitor,
      exec_restartUnlessAborting, World.modifySession_modifySession]
    rfl
  | server =>
    rw [World.afterStop_of_ne _ _ _ .server (by decide) (by decide)]
    simp only [stopper, pcapsessionServerStop, Prog.exec_bind, exec_readSession, Option.bind_some,
      Prog.exec_ite, exec_close, exec_modifySession, exec_restartUnlessAborting]
    by_cases h : (w.session i).fd > 0
    · simp [h, World.stopFds, World.close_eq_closeAll, World.modifySession,
        Session.afterStop, Session.stateAfterStop]
    · simp [h, World.stopFds, World.modifySession,
        Session.afterStop, Session.stateAfterStop]
  | livecapture =>
    rw [World.afterStop_of_ne _ _ _ .livecapture (by decide) (by decide)]
    simp only [stopper, pcapsessionLivecaptureStop, Prog.exec_bind, exec_closePcapHandle,
      exec_closeMonitor, exec_restartUnlessAborting, Option.bind_some,
      World.modifySession_modifySession]
    rfl
  | filecapture =>
    rw [World.afterStop_of_ne _ _ _ .filecapture (by decide) (by decide)]
    simp only [stopper, pcapsessionFilecaptureStop, Prog.exec_bind, exec_closePcapHandle,
      exec_closeMonitor, exec_readSession, Option.bind_some, Prog.exec_ite,
      exec_pcapsessionChangeState, World.modifySession_modifySession,
      World.session_modifySession_self, World.closeAll_session]
    by_cases h₁ : (w.session i).state = .aborting
    · simp [h₁, World.stopFds, World.modifySession, Session.afterStop,
        Session.stateAfterStop]
    · by_cases h₂ : (w.session i).iterations = 0
      · simp [h₁, h₂, World.stopFds, World.modifySession, Session.afterStop,
          Session.stateAfterStop]
      · simp [h₁, h₂, World.stopFds, World.modifySession, Session.afterStop,
          Session.stateAfterStop]

end Exec

end DistributorMerger
