import DistributorMerger.Session.Open

/-!
# Runners

The runner of a session is executed by the session's own thread, statement by statement. A runner
writes the session's state without looking at it: `RUNNING` when it begins, `TERMINATE` when it
gives up or has come to the end of its input.

A loop that waits for the environment is given, as an answer of the environment, the number of
rounds after which it blocks for good; a thread that blocks stays as it is until it is joined. The
packets that `pcap_loop` delivers are not part of the runner: the handler calls are steps of their
own. The accept loop treats the acceptance of one connection, from `accept` to the answer of
`pcapsession_clientconn_open`, as one step.
-/

namespace DistributorMerger

/-- `monitor_open` at time `now` in the source file of `m`, stored in the session. -/
def World.openMonitor (w : World) (m : Module) (i : Slot) (now : ℤ) : World :=
  { w with
    monitorLastOutputTime := Function.update w.monitorLastOutputTime (some m)
      (monitorOpen i.val (w.monitorLastOutputTime (some m)) now).1
    session := Function.update w.session i
      { w.session i with
        monitor := some (monitorOpen i.val (w.monitorLastOutputTime (some m)) now).2 } }

/-- `monitor_open` for a session, with a clock reading. -/
def monitorOpenSession (m : Module) (i : Slot) : SessionProg Unit := do
  let now ← Prog.query .time
  Prog.modify (·.openMonitor m i now)

theorem tends_openMonitor (w : World) (m : Module) (i : Slot) (now : ℤ) :
    Tends w (w.openMonitor m i now) := by
  refine ⟨rfl, fun j ↦ ?_⟩
  by_cases hj : j = i
  · subst hj
    simp only [World.openMonitor, Function.update_self]
    rfl
  · simp only [World.openMonitor, Function.update_of_ne hj]
    exact .refl _

theorem within_monitorOpenSession (m : Module) (i : Slot) :
    (monitorOpenSession m i).Within Tends :=
  (Prog.Within.query _).bind fun now ↦ .modify fun w ↦ tends_openMonitor w m i now

/-- `pcapsession_client_run`. -/
def pcapsessionClientRun (i : Slot) : SessionProg Unit := do
  pcapsessionChangeState i .running
  let fd ← Prog.query .socket
  Prog.modify fun w ↦
    -- a descriptor that the environment cannot grant stands for the error of `socket`
    if w.grants fd then (w.openFd fd .connection).modifySession i ({ · with fd := fd })
    else w.modifySession i ({ · with fd := -1 })
  if (← readSession i (·.fd)) < 0 then
    pcapsessionChangeState i .terminate
  -- the descriptor stays on record when the connection is refused, for the stopper to close
  else if (← Prog.query .connect) < 0 then
    pcapsessionChangeState i .terminate
  else
    monitorOpenSession .client i
    let opened ← Prog.query .pcapFopenOffline
    -- the handle reads from the connection, so it has the same descriptor
    modifySession i fun s ↦ { s with pcapHandle := if opened = 0 then some ⟨s.fd⟩ else none }
    if (← readSession i (·.pcapHandle)).isNone then
      pcapsessionChangeState i .terminate
    else
      let _ ← Prog.query .pcapLoop
      pcapsessionChangeState i .terminate

/-- A dumper is opened on `fd` for the session, as the next stream. -/
def World.openDumper (w : World) (i : Slot) (fd : ℤ) : World :=
  { w with nextDumper := w.nextDumper + 1 }.modifySession i
    ({ · with pcapDumper := some ⟨w.nextDumper, fd⟩ })

/-- `pcapsession_clientconn_run`. -/
def pcapsessionClientconnRun (i : Slot) : SessionProg Unit := do
  pcapsessionChangeState i .running
  monitorOpenSession .clientconn i
  let opened ← Prog.query .pcapDumpFopen
  Prog.modify fun w ↦
    -- the dumper writes to the connection, so it has the same descriptor
    if opened = 0 then w.openDumper i (w.session i).fd
    else w.modifySession i ({ · with pcapDumper := none })
  if (← readSession i (·.pcapDumper)).isNone then
    pcapsessionChangeState i .terminate
  else
    Prog.modify fun w ↦ { w with clientconnlist := Function.update w.clientconnlist i (some i) }

/-- `pcapsession_merger_run`. -/
def pcapsessionMergerRun (i : Slot) : SessionProg Unit := do
  pcapsessionChangeState i .running
  monitorOpenSession .merger i
  let fd ← Prog.query .pcapDumpOpen
  Prog.modify fun w ↦
    if w.grants fd then (w.openFd fd .file).openDumper i fd
    else w.modifySession i ({ · with pcapDumper := none })
  match ← readSession i (·.pcapDumper) with
  | none => pcapsessionChangeState i .terminate
  -- `fileno(pcap_dump_file(..))`
  | some dumper => modifySession i ({ · with fd := dumper.fd })

/-- The accept loop of `pcapsession_server_run`. -/
def serverLoop (i : Slot) : ℕ → SessionProg Unit
  | 0 => pure ()
  | rounds + 1 => do
    if (← readSession i (·.state)) = .running then
      let fd ← readSession i (·.fd)
      let accepted ← Prog.query .accept
      let result ← Prog.atomically (fun _ ↦ 0) (pollServerSocket fd accepted)
      -- a connection that was closed again ends the loop by way of the state, an error at once
      if result ≤ 0 then
        pcapsessionChangeState i .terminate
      if result < 0 then pure () else serverLoop i rounds

/-- `pcapsession_server_run`. -/
def pcapsessionServerRun (i : Slot) : SessionProg Unit := do
  pcapsessionChangeState i .running
  let rounds ← Prog.query .rounds
  serverLoop i rounds.toNat

/-- `pcap_close` of a handle and the assignment of `NULL` behind it. A thread that is cancelled in
`pcap_close` ends before the descriptor is closed. -/
def World.closeHandle (w : World) (i : Slot) (handle : PcapHandle) : World :=
  (w.close handle.fd).modifySession i ({ · with pcapHandle := none })

/-- `pcapsession_livecapture_run`. Both `pcap_loop` and `pcap_close` follow the handle. -/
def pcapsessionLivecaptureRun (i : Slot) : SessionProg Unit := do
  pcapsessionChangeState i .running
  monitorOpenSession .livecapture i
  match ← readSession i (·.pcapHandle) with
  | none => Prog.stuck
  | some handle =>
    let _ ← Prog.query .pcapLoop
    Prog.modify (·.closeHandle i handle)
  pcapsessionChangeState i .terminate

/-- The `while` loop over the capture files of a directory; the result says whether all of them
could be opened. -/
def streamFiles (i : Slot) : ℕ → SessionProg Bool
  | 0 => pure true
  | files + 1 => do
    let fd ← Prog.query .pcapOpenOffline
    Prog.modify fun w ↦
      if w.grants fd then
        (w.openFd fd .file).modifySession i ({ · with pcapHandle := some ⟨fd⟩ })
      else w.modifySession i ({ · with pcapHandle := none })
    match ← readSession i (·.pcapHandle) with
    -- a file that cannot be opened ends the runner
    | none =>
      pcapsessionChangeState i .terminate
      pure false
    | some handle =>
      let selectable ← Prog.query .pcapGetSelectableFd
      modifySession i ({ · with fd := if selectable = 0 then handle.fd else -1 })
      modifySession i ({ · with superviseFd := true })
      let _ ← Prog.query .pcapLoop
      modifySession i ({ · with superviseFd := false })
      modifySession i ({ · with fd := 0 })
      Prog.modify (·.closeHandle i handle)
      streamFiles i files

/-- The `do` loop of `pcapsession_filecapture_run`. -/
def filePasses (i : Slot) : ℕ → SessionProg Unit
  | 0 => pure ()
  | rounds + 1 => do
    modifySession i fun s ↦
      { s with
        -- `PCAP_SESSION_ITERATE_INFINITY` is not counted down
        iterations := if s.iterations ≠ pcapSessionIterateInfinity ∧ s.iterations ≠ 0
          then s.iterations - 1 else s.iterations
        passes := s.passes + 1 }
    if (← Prog.query .opendir) < 0 then
      pcapsessionChangeState i .terminate
    else
      let files ← Prog.query .readdir
      if ← streamFiles i files.toNat then
        -- another pass is made while there are passes left and the last one found a file
        if (← readSession i (·.iterations)) ≠ 0 ∧ 0 < files then
          filePasses i rounds
        else
          pcapsessionChangeState i .terminate

/-- `pcapsession_filecapture_run`. -/
def pcapsessionFilecaptureRun (i : Slot) : SessionProg Unit := do
  pcapsessionChangeState i .running
  monitorOpenSession .filecapture i
  let rounds ← Prog.query .rounds
  filePasses i rounds.toNat

/-- `runner`. -/
def runner : Module → Slot → SessionProg Unit
  | .client => pcapsessionClientRun
  | .clientconn => pcapsessionClientconnRun
  | .merger => pcapsessionMergerRun
  | .server => pcapsessionServerRun
  | .livecapture => pcapsessionLivecaptureRun
  | .filecapture => pcapsessionFilecaptureRun

end DistributorMerger
