import DistributorMerger.Session.Supervision

/-!
# Opening sessions

An open function takes an empty slot, fills it in and hands it to session handling. Server and live
capture sessions acquire what they run on here; a client connection is given a descriptor that has
just been accepted; the other modules leave that to their runners.
-/

namespace DistributorMerger

/-- Fill in a new session slot and hand it to session handling. The fields that an open function
clears are still clear from `pcapsession_handling_get_new`. -/
def openSession (fill : Slot → SessionProg Bool) : SessionProg (Option Slot) := do
  match ← pcapsessionHandlingGetNew with
  | none => pure none
  | some i =>
    if ← fill i then
      let _ ← pcapsessionHandlingAdd i
      pure (some i)
    else pure none

/-- `pcapsession_client_open`. -/
def pcapsessionClientOpen (merger : Option Slot) : SessionProg (Option Slot) :=
  openSession fun i ↦ do
    modifySession i ({ · with module := some .client })
    modifySession i ({ · with handler := merger })
    modifySession i ({ · with fd := 0, superviseFd := true, monitor := none, pcapHandle := none,
                              pcapDumper := none, untunnel := false, iterations := 0 })
    pure true

/-- `pcapsession_clientconn_open` for the descriptor of an accepted connection. -/
def pcapsessionClientconnOpen (clientSocketFd : ℤ) : SessionProg (Option Slot) := do
  if !(← Prog.read (·.clientconnlistInitialized)) then
    Prog.modify ({ · with clientconnlist := fun _ ↦ none })
    Prog.modify ({ · with clientconnlistInitialized := true })
  openSession fun i ↦ do
    modifySession i ({ · with module := some .clientconn })
    modifySession i ({ · with fd := clientSocketFd, superviseFd := true })
    modifySession i ({ · with monitor := none, pcapHandle := none, pcapDumper := none,
                              handler := none, untunnel := false, iterations := 0 })
    pure true

/-- `pcapsession_merger_open`. -/
def pcapsessionMergerOpen (untunnel : Bool) : SessionProg (Option Slot) :=
  openSession fun i ↦ do
    modifySession i ({ · with module := some .merger })
    modifySession i ({ · with untunnel := untunnel })
    modifySession i ({ · with monitor := none, pcapHandle := none, pcapDumper := none,
                              handler := none, fd := 0, superviseFd := true, iterations := 0 })
    pure true

/-- `pcapsession_server_open`. The slot is given back when the socket cannot be opened. -/
def pcapsessionServerOpen : SessionProg (Option Slot) :=
  openSession fun i ↦ do
    modifySession i ({ · with module := some .server })
    modifySession i ({ · with monitor := none, pcapHandle := none, pcapDumper := none,
                              handler := none, untunnel := false, iterations := 0 })
    let fd ← Prog.query .openServerSocket
    if ← Prog.read (·.grants fd) then
      Prog.modify fun w ↦ (w.openFd fd .listening).modifySession i ({ · with fd := fd })
      modifySession i ({ · with superviseFd := false })
      pure true
    else
      modifySession i ({ · with fd := 0 })
      pcapsessionChangeState i .unused
      pure false

/-- `pcapsession_livecapture_open`. The slot is given back when the interface cannot be opened. -/
def pcapsessionLivecaptureOpen : SessionProg (Option Slot) :=
  openSession fun i ↦ do
    modifySession i ({ · with module := some .livecapture })
    let fd ← Prog.query .pcapOpenLive
    if ← Prog.read (·.grants fd) then
      Prog.modify fun w ↦
        (w.openFd fd .capture).modifySession i ({ · with pcapHandle := some ⟨fd⟩ })
      let selectable ← Prog.query .pcapGetSelectableFd
      modifySession i ({ · with fd := if selectable = 0 then fd else -1, superviseFd := true })
      modifySession i ({ · with monitor := none, pcapDumper := none, handler := none,
                                untunnel := false, iterations := 0 })
      pure true
    else
      modifySession i ({ · with pcapHandle := none })
      pcapsessionChangeState i .unused
      pure false

/-- `pcapsession_filecapture_open`. -/
def pcapsessionFilecaptureOpen (iterations : ℤ) : SessionProg (Option Slot) :=
  openSession fun i ↦ do
    modifySession i ({ · with module := some .filecapture })
    modifySession i ({ · with fd := 0, superviseFd := false, monitor := none, pcapHandle := none,
                              pcapDumper := none, handler := none, untunnel := false,
                              iterations := iterations })
    pure true

/-- `poll_server_socket`: accept a connection on the server's descriptor and open a session for it;
a connection that is not taken is closed again. -/
def pollServerSocket (handle : ℤ) (accepted : ℤ) : SessionProg ℤ := do
  if handle ≤ 0 then pure (-1)
  else if ← Prog.read (·.grants accepted) then
    Prog.modify (·.openFd accepted .connection)
    match ← pcapsessionClientconnOpen accepted with
    | some _ => pure 1
    | none =>
      close accepted
      pure 0
  else pure (-2)

/-! ## What opening does on its own -/

/-- A session is placed in a slot. -/
def World.place (w : World) (k : Slot) (s : Session) : World := w.modifySession k fun _ ↦ s

/-- The slot that a new session is given. -/
def World.firstUnused (w : World) : Option Slot :=
  (List.finRange pcapSessionMaxSessions).find? fun i ↦ (w.session i).state = .unused

/-- A new session of module `m` that has been handed to session handling. -/
def Session.opened (m : Module) (k : Slot) : Session :=
  { Session.zero with id := k, state := .start, module := some m }

/-- The list of client connections is cleared when the first connection arrives. -/
def World.initClientconnlist (w : World) : World :=
  if w.clientconnlistInitialized then w
  else { w with clientconnlist := fun _ ↦ none, clientconnlistInitialized := true }

theorem World.state_of_firstUnused {w : World} {k : Slot} (h : w.firstUnused = some k) :
    (w.session k).state = .unused := by
  simpa using List.find?_some h

section Exec

variable (answer : Query → ℤ) (w : World)

theorem exec_findUnused (slots : List Slot) :
    (findUnused slots).exec answer w
      = some (slots.find? fun i ↦ (w.session i).state = .unused, w) := by
  induction slots with
  | nil => rfl
  | cons i slots ih =>
    rw [findUnused, Prog.exec_bind, exec_readSession, Option.bind_some, Prog.exec_ite]
    by_cases h : (w.session i).state = .unused
    · rw [if_pos h, List.find?_cons_of_pos (by simpa using h)]
      rfl
    · rw [if_neg h, List.find?_cons_of_neg (by simpa using h), ih]

theorem exec_pcapsessionHandlingGetNew :
    pcapsessionHandlingGetNew.exec answer w
      = match w.firstUnused with
        | none => some (none, w)
        | some k => some (some k, w.place k { Session.zero with id := k, state := .stopped }) := by
  rw [pcapsessionHandlingGetNew, Prog.exec_bind, exec_findUnused, Option.bind_some,
    ← World.firstUnused]
  cases w.firstUnused with
  | none => rfl
  | some k =>
    simp only [Prog.exec_bind, exec_modifySession, exec_pcapsessionChangeState, Option.bind_some,
      Prog.exec_pure, World.modifySession_modifySession]
    rfl

theorem exec_pcapsessionClientconnOpen (fd : ℤ) :
    (pcapsessionClientconnOpen fd).exec answer w
      = some (w.firstUnused, match w.firstUnused with
        | none => w.initClientconnlist
        | some k => w.initClientconnlist.place k
          { Session.opened .clientconn k with fd := fd, superviseFd := true }) := by
  have hinit : w.initClientconnlist.firstUnused = w.firstUnused := by
    rw [World.initClientconnlist]
    split <;> rfl
  have hopen : (pcapsessionClientconnOpen fd).exec answer w
      = (openSession fun i ↦ do
          modifySession i ({ · with module := some .clientconn })
          modifySession i ({ · with fd := fd, superviseFd := true })
          modifySession i ({ · with monitor := none, pcapHandle := none, pcapDumper := none,
                                    handler := none, untunnel := false, iterations := 0 })
          pure true).exec answer w.initClientconnlist := by
    rw [pcapsessionClientconnOpen, World.initClientconnlist]
    cases h : w.clientconnlistInitialized <;> simp [h]
  rw [hopen, openSession, Prog.exec_bind, exec_pcapsessionHandlingGetNew, hinit]
  cases w.firstUnused with
  | none => rfl
  | some k => simp [pcapsessionHandlingAdd, World.place, Session.opened, Session.zero]

/-- A connection that is accepted leads to a session, or is closed again when the list is full. -/
theorem exec_pollServerSocket (handle fd : ℤ) :
    (pollServerSocket handle fd).exec answer w
      = some (if handle ≤ 0 then (-1, w)
        else if w.grants fd then
          match w.firstUnused with
          | none => (0, (w.openFd fd .connection).initClientconnlist.close fd)
          | some k => (1, (w.openFd fd .connection).initClientconnlist.place k
            { Session.opened .clientconn k with fd := fd, superviseFd := true })
        else (-2, w)) := by
  unfold pollServerSocket
  by_cases hhandle : handle ≤ 0
  · simp [hhandle]
  · by_cases hfd : w.grants fd = true
    · have hfirst : (w.openFd fd .connection).firstUnused = w.firstUnused := rfl
      simp only [hhandle, hfd, if_false, if_true, Prog.exec_bind, Prog.exec_read,
        Prog.exec_modify, Option.bind_some, exec_pcapsessionClientconnOpen, hfirst]
      cases w.firstUnused <;> rfl
    · simp [hhandle, hfd]

end Exec

/-! ## Calls and their effects -/

/-- A call of an open function from outside session handling. -/
inductive OpenCall
  /-- `pcapsession_client_open`. -/
  | client (handler : Option Slot)
  /-- `pcapsession_merger_open`. -/
  | merger (untunnel : Bool)
  /-- `pcapsession_server_open`. -/
  | server
  /-- `pcapsession_livecapture_open`. -/
  | livecapture
  /-- `pcapsession_filecapture_open`. -/
  | filecapture (iterations : ℤ)

/-- The function that is called. -/
def OpenCall.prog : OpenCall → SessionProg (Option Slot)
  | .client handler => pcapsessionClientOpen handler
  | .merger untunnel => pcapsessionMergerOpen untunnel
  | .server => pcapsessionServerOpen
  | .livecapture => pcapsessionLivecaptureOpen
  | .filecapture iterations => pcapsessionFilecaptureOpen iterations

/-- What a call of an open function does: it finds no slot, gives the slot back, or places a new
session in it. -/
inductive OpenEffect (w : World) : World → Prop
  /-- All slots are in use. -/
  | full : OpenEffect w w
  /-- The resource could not be acquired. -/
  | refused (k : Slot) (m : Module) (hk : (w.session k).state = .unused) :
      OpenEffect w (w.place k { Session.opened m k with state := .unused })
  /-- A session whose runner acquires what it needs. -/
  | plain (k : Slot) (s : Session) (hk : (w.session k).state = .unused)
      (hs : s = { Session.opened .client k with handler := s.handler, superviseFd := true } ∨
        s = { Session.opened .merger k with untunnel := s.untunnel, superviseFd := true } ∨
        s = { Session.opened .filecapture k with iterations := s.iterations }) :
      OpenEffect w (w.place k s)
  /-- A server with its listening socket. -/
  | server (k : Slot) (fd : ℤ) (hk : (w.session k).state = .unused) (hfd : w.grants fd = true) :
      OpenEffect w ((w.openFd fd .listening).place k { Session.opened .server k with fd := fd })
  /-- A live capture with its handle. -/
  | livecapture (k : Slot) (fd selectable : ℤ) (hk : (w.session k).state = .unused)
      (hfd : w.grants fd = true) :
      OpenEffect w ((w.openFd fd .capture).place k
        { Session.opened .livecapture k with
          pcapHandle := some ⟨fd⟩, fd := if selectable = 0 then fd else -1, superviseFd := true })

/-- What one call of `poll_server_socket` does. -/
inductive AcceptEffect (w : World) : World → Prop
  /-- No connection is accepted. -/
  | nothing : AcceptEffect w w
  /-- The connection is closed again, since all slots are in use. -/
  | rejected (fd : ℤ) (hfd : w.grants fd = true) :
      AcceptEffect w ((w.openFd fd .connection).initClientconnlist.close fd)
  /-- A session is opened for the connection. -/
  | accepted (k : Slot) (fd : ℤ) (hk : (w.session k).state = .unused) (hfd : w.grants fd = true) :
      AcceptEffect w ((w.openFd fd .connection).initClientconnlist.place k
        { Session.opened .clientconn k with fd := fd, superviseFd := true })

section Effects

variable {answer : Query → ℤ} {w w' : World} {r : Option Slot}

theorem openEffect_openSession {fill : Slot → SessionProg Bool}
    (hfill : ∀ k, (w.session k).state = .unused → ∃ b w₁,
      (fill k).exec answer (w.place k { Session.zero with id := k, state := .stopped })
        = some (b, w₁) ∧
      OpenEffect w (if b then w₁.modifySession k ({ · with state := .start, id := k }) else w₁))
    (h : (openSession fill).exec answer w = some (r, w')) : OpenEffect w w' := by
  rw [openSession, Prog.exec_bind, exec_pcapsessionHandlingGetNew] at h
  cases hk : w.firstUnused with
  | none =>
    rw [hk] at h
    cases h
    exact .full
  | some k =>
    obtain ⟨b, w₁, hexec, heffect⟩ := hfill k (World.state_of_firstUnused hk)
    simp only [hk, Option.bind_some, Prog.exec_bind, hexec, Prog.exec_ite] at h
    cases b with
    | false =>
      cases h
      exact heffect
    | true =>
      simp only [pcapsessionHandlingAdd, Prog.exec_bind, exec_pcapsessionChangeState,
        exec_modifySession, Prog.exec_pure, Option.bind_some,
        World.modifySession_modifySession] at h
      cases h
      exact heffect

theorem openEffect_of_exec {c : OpenCall} (h : c.prog.exec answer w = some (r, w')) :
    OpenEffect w w' := by
  cases c with
  | client handler =>
    refine openEffect_openSession (fun k hk ↦ ⟨true, _, rfl, ?_⟩) h
    simp only [World.place, World.modifySession_modifySession, if_true]
    exact .plain k _ hk (.inl rfl)
  | merger untunnel =>
    refine openEffect_openSession (fun k hk ↦ ⟨true, _, rfl, ?_⟩) h
    simp only [World.place, World.modifySession_modifySession, if_true]
    exact .plain k _ hk (.inr (.inl rfl))
  | server =>
    refine openEffect_openSession (fun k hk ↦ ?_) h
    by_cases hfd : w.grants (answer .openServerSocket) = true
    · refine ⟨true, (w.openFd (answer .openServerSocket) .listening).place k
        { Session.opened .server k with state := .stopped, fd := answer .openServerSocket }, ?_, ?_⟩
      · simp [hfd, World.place, Session.opened, Session.zero]
      · simp only [World.place, World.modifySession_modifySession, if_true]
        exact .server k _ hk hfd
    · refine ⟨false, w.place k { Session.opened .server k with state := .unused }, ?_, ?_⟩
      · simp [hfd, World.place, Session.opened, Session.zero]
      · exact .refused k .server hk
  | livecapture =>
    refine openEffect_openSession (fun k hk ↦ ?_) h
    by_cases hfd : w.grants (answer .pcapOpenLive) = true
    · refine ⟨true, (w.openFd (answer .pcapOpenLive) .capture).place k
        { Session.opened .livecapture k with
          state := .stopped, pcapHandle := some ⟨answer .pcapOpenLive⟩,
          fd := if answer .pcapGetSelectableFd = 0 then answer .pcapOpenLive else -1,
          superviseFd := true }, ?_, ?_⟩
      · simp [hfd, World.place, Session.opened, Session.zero]
      · simp only [World.place, World.modifySession_modifySession, if_true]
        exact .livecapture k _ (answer .pcapGetSelectableFd) hk hfd
    · refine ⟨false, w.place k { Session.opened .livecapture k with state := .unused }, ?_, ?_⟩
      · simp [hfd, World.place, Session.opened, Session.zero]
      · exact .refused k .livecapture hk
  | filecapture iterations =>
    refine openEffect_openSession (fun k hk ↦ ⟨true, _, rfl, ?_⟩) h
    simp only [World.place, World.modifySession_modifySession, if_true]
    exact .plain k _ hk (.inr (.inr rfl))

theorem World.unmoved_place {k j : Slot} {s : Session} (hk : (w.session k).state = .unused)
    (hj : (w.session j).state ≠ .unused) : (w.session j).Unmoved ((w.place k s).session j) := by
  have hjk : j ≠ k := fun hjk ↦ hj (hjk ▸ hk)
  exact w.unmoved_modifySession_of_ne hjk _

theorem OpenEffect.unmoved (h : OpenEffect w w') {j : Slot} (hj : (w.session j).state ≠ .unused) :
    (w.session j).Unmoved (w'.session j) := by
  cases h with
  | full => exact .refl _
  | refused k m hk => exact World.unmoved_place hk hj
  | plain k s hk hs => exact World.unmoved_place hk hj
  | server k fd hk hfd => exact World.unmoved_place (w := w.openFd fd .listening) hk hj
  | livecapture k fd selectable hk hfd =>
    exact World.unmoved_place (w := w.openFd fd .capture) hk hj

theorem World.initClientconnlist_session (w : World) :
    w.initClientconnlist.session = w.session ∧ w.initClientconnlist.openFds = w.openFds := by
  rw [World.initClientconnlist]
  split <;> exact ⟨rfl, rfl⟩

theorem AcceptEffect.unmoved (h : AcceptEffect w w') {j : Slot}
    (hj : (w.session j).state ≠ .unused) : (w.session j).Unmoved (w'.session j) := by
  cases h with
  | nothing => exact .refl _
  | rejected fd hfd =>
    rw [World.close_session, (World.initClientconnlist_session _).1]
    exact .refl _
  | accepted k fd hk hfd =>
    have hsession := (World.initClientconnlist_session (w.openFd fd .connection)).1
    have hjk : j ≠ k := fun hjk ↦ hj (hjk ▸ hk)
    rw [World.place, World.session_modifySession_of_ne _ hjk, hsession]
    exact .refl _

theorem acceptEffect_of_exec {handle fd z : ℤ}
    (h : (pollServerSocket handle fd).exec answer w = some (z, w')) : AcceptEffect w w' := by
  rw [exec_pollServerSocket, Option.some.injEq] at h
  split at h
  · cases h
    exact .nothing
  · split at h
    · rename_i hfd
      cases hk : w.firstUnused with
      | none =>
        rw [hk] at h
        cases h
        exact .rejected fd hfd
      | some k =>
        rw [hk] at h
        cases h
        exact .accepted k fd (World.state_of_firstUnused hk) hfd
    · cases h
      exact .nothing

end Effects

end DistributorMerger
