import DistributorMerger.Session.Visit

/-!
# What visits do, statement by statement

Every statement of a visit is one of a few kinds of steps. What a stopper does to its session it
does when the session has no thread: the thread has been joined before, and nobody else assigns to a
session without a thread that is in use, except to its monitor and to the lock around its dumper. So
what the stopper reads is what it decides on.
-/

namespace DistributorMerger

/-- The session is not a client connection that handlers may find on the list. -/
def World.Detached (w : World) (i : Slot) : Prop :=
  (w.session i).module = some .clientconn → w.clientconnlist i = none

/-- The descriptor of the session is its own, not a note about the capture handle. -/
def Module.OwnsFd (m : Module) : Prop := m ≠ .livecapture ∧ m ≠ .filecapture

/-- A statement of a visit of slot `i`. -/
inductive SupervisorStep (i : Slot) (w : World) : World → Prop
  /-- It changes nothing. -/
  | pauses : SupervisorStep i w w
  /-- It tends the session. -/
  | tends {w' : World} (h : Tends w w') : SupervisorStep i w w'
  /-- It orders a stop, or that a stop be carried out. An abort is ordered only during the
  shutdown. -/
  | orders (newState : SessionState) (hused : (w.session i).state ≠ .unused)
      (hnew : newState = .terminate ∨ newState = .terminating ∨
        (newState = .abort ∨ newState = .aborting) ∧ w.handlingState ≠ .running) :
      SupervisorStep i w (w.setState i newState)
  /-- It counts an interval. -/
  | counts (n : ℕ) : SupervisorStep i w (w.modifySession i ({ · with intervalCounter := n }))
  /-- It starts the session. -/
  | starts (halone : ¬ w.HasThread i) (hstate : (w.session i).state = .start) :
      SupervisorStep i w (w.setState i .starting)
  /-- It creates the thread of the session. -/
  | creates (m : Module) (halone : ¬ w.HasThread i) (hstate : (w.session i).state = .starting)
      (hm : (w.session i).module = some m)
      (hstartable : m.Startable (w.session i).fd (w.session i).pcapHandle
        (w.session i).pcapDumper) :
      SupervisorStep i w (w.createThread i m)
  /-- It cancels the thread. -/
  | cancels (hthread : (w.session i).thread ≠ 0) :
      SupervisorStep i w (w.cancelThread (w.session i).thread)
  /-- It joins the thread. -/
  | joins (hthread : (w.session i).thread ≠ 0)
      (hcancelled : w.cancelled (w.session i).thread = true) :
      SupervisorStep i w (w.joinThread (w.session i).thread)
  /-- It forgets the thread. -/
  | forgets (halone : ¬ w.HasThread i) :
      SupervisorStep i w (w.modifySession i ({ · with thread := 0 }))
  /-- It takes a client connection off the list. -/
  | unlists (halone : ¬ w.HasThread i) (hm : (w.session i).module = some .clientconn) :
      SupervisorStep i w (w.unlist i)
  /-- It closes the dumper. -/
  | closesDumper (dumper : PcapDumper) (halone : ¬ w.HasThread i) (hdetached : w.Detached i)
      (hdumper : (w.session i).pcapDumper = some dumper) :
      SupervisorStep i w (w.closeDumper dumper)
  /-- It forgets the dumper. -/
  | clearsDumper (halone : ¬ w.HasThread i) (hdetached : w.Detached i) :
      SupervisorStep i w (w.modifySession i ({ · with pcapDumper := none }))
  /-- It closes the capture handle. -/
  | closesHandle (handle : PcapHandle) (halone : ¬ w.HasThread i)
      (hhandle : (w.session i).pcapHandle = some handle) : SupervisorStep i w (w.close handle.fd)
  /-- It forgets the capture handle. -/
  | clearsHandle (halone : ¬ w.HasThread i) :
      SupervisorStep i w (w.modifySession i ({ · with pcapHandle := none }))
  /-- It closes the descriptor. -/
  | closesFd (m : Module) (halone : ¬ w.HasThread i) (hm : (w.session i).module = some m)
      (howns : m.OwnsFd) (hpos : 0 < (w.session i).fd) :
      SupervisorStep i w (w.close (w.session i).fd)
  /-- It forgets the descriptor. -/
  | clearsFd (halone : ¬ w.HasThread i) :
      SupervisorStep i w (w.modifySession i ({ · with fd := 0 }))
  /-- The stopper decides what becomes of the session. -/
  | decides (m : Module) (halone : ¬ w.HasThread i) (hused : (w.session i).state ≠ .unused)
      (hm : (w.session i).module = some m) (hdetached : w.Detached i)
      (hstart : (w.session i).stateAfterStop m = .start →
        m.Startable (w.session i).fd (w.session i).pcapHandle (w.session i).pcapDumper) :
      SupervisorStep i w (w.setState i ((w.session i).stateAfterStop m))
  /-- It gives the slot back. -/
  | releases (halone : ¬ w.HasThread i) (hstate : (w.session i).state = .stopped)
      (hdetached : w.Detached i) (hdumper : (w.session i).pcapDumper = none) :
      SupervisorStep i w (w.setState i .unused)

instance (i : Slot) : Std.Refl (SupervisorStep i) := ⟨fun _ ↦ .pauses⟩

/-! ## What visits rely on -/

/-- What is true of every session between any two statements. -/
structure Session.Tidy (s : Session) : Prop where
  /-- A slot in use has a module. -/
  used : s.state ≠ .unused → ∃ m, s.module = some m
  /-- A session to be started is fit for its runner. -/
  startable : ∀ {m}, s.state = .start → s.module = some m →
    m.Startable s.fd s.pcapHandle s.pcapDumper
  /-- Only client connections and mergers have a dumper. -/
  undumped : ∀ {m}, s.module = some m → m ≠ .clientconn → m ≠ .merger → s.pcapDumper = none

/-- What is true between any two statements. -/
structure Orderly (w : World) : Prop where
  /-- The lifecycle is maintained. -/
  lifecycle : Lifecycle w
  /-- The sessions are tidy. -/
  tidy : ∀ i, (w.session i).Tidy
  /-- A thread belongs to a session of its module. -/
  thread_module : ∀ {t i m}, w.threads t = some (i, m) → (w.session i).module = some m
  /-- Threads are numbered in order. -/
  thread_lt : ∀ {t i m}, w.threads t = some (i, m) → t < w.nextThread

/-- What everybody else may do while slot `i` is visited. -/
structure Beside (i : Slot) (w w' : World) : Prop extends Interference i w w' where
  /-- The shutdown is not taken back. -/
  handling : w.handlingState ≠ .running → w'.handlingState ≠ .running
  /-- Nobody else cancels threads. -/
  cancelled : w'.cancelled = w.cancelled
  /-- A session keeps its module. -/
  module : (w.session i).state ≠ .unused → (w'.session i).module = (w.session i).module
  /-- A session in use without a thread is left alone. -/
  unmoved : (w.session i).state ≠ .unused → ¬ w.HasThread i →
    (w.session i).Unmoved (w'.session i)
  /-- It is not put on the list either. -/
  unlisted : (w.session i).state ≠ .unused → ¬ w.HasThread i → w.clientconnlist i = none →
    w'.clientconnlist i = none

/-- What a visit of slot `i` relies on. -/
structure Attends (i : Slot) (w w' : World) : Prop extends Beside i w w' where
  /-- The world is orderly when the visit goes on. -/
  orderly : Orderly w'

section Rely

variable {i : Slot} {w w' w'' : World}

theorem Beside.refl (i : Slot) (w : World) : Beside i w w where
  toInterference := refl_of (Interference i) w
  handling := id
  cancelled := rfl
  module := fun _ ↦ rfl
  unmoved := fun _ _ ↦ .refl _
  unlisted := fun _ _ ↦ id

theorem Beside.trans (h : Beside i w w') (h' : Beside i w' w'') : Beside i w w'' where
  toInterference := h.toInterference.trans h'.toInterference
  handling := h'.handling ∘ h.handling
  cancelled := h'.cancelled.trans h.cancelled
  module := fun hused ↦ (h'.module (h.toInterference.unused hused)).trans (h.module hused)
  unmoved := fun hused halone ↦ (h.unmoved hused halone).trans
    (h'.unmoved (h.toInterference.unused hused) fun ht ↦ halone (h.hasThread ht))
  unlisted := fun hused halone hlist ↦ h'.unlisted (h.toInterference.unused hused)
    (fun ht ↦ halone (h.hasThread ht)) (h.unlisted hused halone hlist)

instance : IsTrans World (Attends i) :=
  ⟨fun _ _ _ h h' ↦ ⟨h.toBeside.trans h'.toBeside, h'.orderly⟩⟩

instance : Prog.Settles (Attends i) := ⟨fun h ↦ ⟨.refl i _, h.orderly⟩⟩

end Rely

/-! ## What visits know -/

section Assertions

variable {i : Slot} {w w' : World} {φ ψ : Session → Prop}

/-- The slot is in use. -/
def InUse (i : Slot) (w : World) : Prop := (w.session i).state ≠ .unused

theorem InUse.stable : Prog.Stable (Attends i) (InUse i) := fun _ _ hR h ↦
  hR.toInterference.unused h

/-- The slot is in use and has no thread, and `φ` is said of the session. -/
structure Alone (i : Slot) (φ : Session → Prop) (w : World) : Prop where
  /-- The slot is in use. -/
  used : (w.session i).state ≠ .unused
  /-- It has no thread. -/
  alone : ¬ w.HasThread i
  /-- What is known of the session. -/
  session : φ (w.session i)

/-- The same, when no handler can find the session. -/
structure Stopping (i : Slot) (φ : Session → Prop) (w : World) : Prop extends Alone i φ w where
  /-- It is not on the list. -/
  detached : w.Detached i

/-- It depends neither on the monitor nor on the lock around the dumper. -/
def Lasting (φ : Session → Prop) : Prop := ∀ s s' : Session, s.Unmoved s' → φ s → φ s'

theorem Alone.stable (hφ : Lasting φ) : Prog.Stable (Attends i) (Alone i φ) := fun _ _ hR h ↦
  ⟨hR.toInterference.unused h.used, fun ht ↦ h.alone (hR.hasThread ht),
    hφ _ _ (hR.unmoved h.used h.alone) h.session⟩

theorem Stopping.stable (hφ : Lasting φ) : Prog.Stable (Attends i) (Stopping i φ) := by
  intro w w' hR h
  refine ⟨Alone.stable hφ w w' hR h.toAlone, fun hm ↦ ?_⟩
  rw [hR.module h.used] at hm
  exact hR.unlisted h.used h.alone (h.detached hm)

theorem Stopping.modifySession {f : Session → Session} (h : Stopping i φ w)
    (hused : (f (w.session i)).state ≠ .unused)
    (hmodule : (f (w.session i)).module = (w.session i).module) (hψ : ψ (f (w.session i))) :
    Stopping i ψ (w.modifySession i f) := by
  refine ⟨⟨?_, h.alone, ?_⟩, fun hm ↦ h.detached ?_⟩
  · rw [World.session_modifySession_self]
    exact hused
  · rw [World.session_modifySession_self]
    exact hψ
  · rw [World.session_modifySession_self, hmodule] at hm
    exact hm

theorem steps_assigns {f : Session → Session} (hφ : Lasting φ) (hψ : Lasting ψ)
    (hstep : ∀ w, Stopping i φ w → SupervisorStep i w (w.modifySession i f))
    (hstate : ∀ s, (f s).state = s.state) (hmodule : ∀ s, (f s).module = s.module)
    (h : ∀ s, φ s → ψ (f s)) :
    Prog.Triple (Attends i) (SupervisorStep i) (Stopping i φ) (modifySession i f) fun _ ↦
      Stopping i ψ := by
  refine .modify (Stopping.stable hφ) (Stopping.stable hψ) hstep fun w hw ↦ ?_
  refine hw.modifySession ?_ (hmodule _) (h _ hw.session)
  rw [hstate]
  exact hw.used

theorem steps_reads {β : Type} {g : Session → β} (hφ : Lasting φ)
    (hg : ∀ s s' : Session, s.Unmoved s' → g s' = g s) :
    Prog.Triple (Attends i) (SupervisorStep i) (Stopping i φ) (readSession i g) fun v ↦
      Stopping i fun s ↦ φ s ∧ g s = v := by
  refine .read (Stopping.stable hφ) (fun v ↦ Stopping.stable ?_) fun w hw ↦
    ⟨⟨hw.used, hw.alone, hw.session, rfl⟩, hw.detached⟩
  rintro s s' hs ⟨h, rfl⟩
  exact ⟨hφ s s' hs h, hg s s' hs⟩

theorem steps_polls (q : Query) (fd : ℤ) (hφ : Lasting φ) :
    Prog.Triple (Attends i) (SupervisorStep i) (Stopping i φ) (iotestsFdOpen q fd) fun _ ↦
      Stopping i φ :=
  (Prog.Triple.query (Stopping.stable hφ) fun _ _ h ↦ h).bind fun _ ↦
    .read_any _ (Stopping.stable hφ)

theorem Lasting.and (hφ : Lasting φ) (hψ : Lasting ψ) : Lasting fun s ↦ φ s ∧ ψ s :=
  fun s s' hs h ↦ ⟨hφ s s' hs h.1, hψ s s' hs h.2⟩

theorem lasting_of_eq {β : Type} {g : Session → β}
    (hg : ∀ s s' : Session, s.Unmoved s' → g s' = g s)
    (v : β) : Lasting fun s ↦ g s = v := fun s s' hs h ↦ (hg s s' hs).trans h

end Assertions

/-! ## Stoppers -/

section Stoppers

variable {i : Slot} {w : World} {φ : Session → Prop} {Φ : SessionState → Prop} {m : Module}

theorem steps_closes {f : World → World} (hφ : Lasting φ)
    (hstep : ∀ w, Stopping i φ w → SupervisorStep i w (f w))
    (hsame : ∀ w, (f w).session = w.session ∧ (f w).threads = w.threads ∧
      (f w).clientconnlist = w.clientconnlist) :
    Prog.Triple (Attends i) (SupervisorStep i) (Stopping i φ) (Prog.modify f : SessionProg Unit)
      fun _ ↦ Stopping i φ := by
  refine .modify (Stopping.stable hφ) (Stopping.stable hφ) hstep fun w hw ↦ ?_
  obtain ⟨hsession, hthreads, hlist⟩ := hsame w
  refine ⟨⟨?_, ?_, ?_⟩, ?_⟩
  · rw [hsession]
    exact hw.used
  · rw [World.HasThread, hthreads]
    exact hw.alone
  · rw [hsession]
    exact hw.session
  · rw [World.Detached, hsession, hlist]
    exact hw.detached

theorem steps_closePcapHandle (hφ : Lasting φ)
    (hclear : ∀ s, φ s → φ { s with pcapHandle := none }) :
    Prog.Triple (Attends i) (SupervisorStep i) (Stopping i φ) (closePcapHandle i) fun _ ↦
      Stopping i fun s ↦ φ s ∧ s.pcapHandle = none := by
  have hnone := hφ.and (lasting_of_eq unmoved_pcapHandle none)
  refine (steps_reads hφ unmoved_pcapHandle).bind fun handle ↦ ?_
  cases handle with
  | none => exact .pure (Stopping.stable hnone) fun _ h ↦ h
  | some handle =>
    have hsome := hφ.and (lasting_of_eq unmoved_pcapHandle (some handle))
    refine (steps_closes hsome (fun w hw ↦ .closesHandle handle hw.alone hw.session.2)
      fun _ ↦ ⟨rfl, rfl, rfl⟩).bind fun _ ↦ ?_
    exact steps_assigns hsome hnone (fun w hw ↦ .clearsHandle hw.alone) (fun _ ↦ rfl)
      (fun _ ↦ rfl) fun s hs ↦ ⟨hclear s hs.1, rfl⟩

theorem steps_closePcapDumper (hφ : Lasting φ)
    (hclear : ∀ s, φ s → φ { s with pcapDumper := none }) :
    Prog.Triple (Attends i) (SupervisorStep i) (Stopping i φ) (closePcapDumper i) fun _ ↦
      Stopping i fun s ↦ φ s ∧ s.pcapDumper = none := by
  have hnone := hφ.and (lasting_of_eq unmoved_pcapDumper none)
  have hforget : ∀ {ψ : Session → Prop}, Lasting ψ → (∀ s, ψ s → φ s) →
      Prog.Triple (Attends i) (SupervisorStep i) (Stopping i ψ)
        (modifySession i ({ · with pcapDumper := none })) fun _ ↦
          Stopping i fun s ↦ φ s ∧ s.pcapDumper = none := fun hψ hsub ↦
    steps_assigns hψ hnone (fun w hw ↦ .clearsDumper hw.alone hw.detached) (fun _ ↦ rfl)
      (fun _ ↦ rfl) fun s hs ↦ ⟨hclear s (hsub s hs), rfl⟩
  refine (steps_reads hφ unmoved_pcapDumper).bind fun dumper ↦ ?_
  cases dumper with
  | none => exact hforget hnone fun _ h ↦ h.1
  | some dumper =>
    have hsome := hφ.and (lasting_of_eq unmoved_pcapDumper (some dumper))
    refine (steps_polls _ _ hsome).bind fun seemsOpen ↦ .ite (fun _ ↦ ?_) fun _ ↦
      hforget hsome fun _ h ↦ h.1
    refine (steps_polls _ _ hsome).bind fun seemsOpen ↦ ?_
    have hrest : ∀ {ψ : Session → Prop}, Lasting ψ → (∀ s, ψ s → φ s) →
        Prog.Triple (Attends i) (SupervisorStep i) (Stopping i ψ) (do
          modifySession i ({ · with pcapDumper := none })
          modifySession i ({ · with pcapDumper := none })) fun _ ↦
            Stopping i fun s ↦ φ s ∧ s.pcapDumper = none := fun hψ hsub ↦
      (hforget hψ hsub).bind fun _ ↦ hforget hnone fun _ h ↦ h.1
    refine .ite (fun _ ↦ ?_) fun _ ↦ hrest hsome fun _ h ↦ h.1
    refine (steps_closes (f := (·.closeDumper dumper)) hsome (fun w hw ↦ ?_)
      fun _ ↦ ⟨rfl, rfl, rfl⟩).bind fun _ ↦ hrest hsome fun _ h ↦ h.1
    exact .closesDumper dumper hw.alone hw.detached hw.session.2

theorem steps_closeOpenFd (hφ : Lasting φ) (hm : ∀ s, φ s → s.module = some m) (howns : m.OwnsFd)
    (hclear : ∀ s, φ s → φ { s with fd := 0 }) :
    Prog.Triple (Attends i) (SupervisorStep i) (Stopping i φ) (closeOpenFd i) fun _ ↦
      Stopping i fun s ↦ φ s ∧ s.fd = 0 := by
  have hzero := hφ.and (lasting_of_eq unmoved_fd 0)
  refine (steps_reads hφ unmoved_fd).bind fun fd ↦ ?_
  have hsome := hφ.and (lasting_of_eq unmoved_fd fd)
  have hforget : Prog.Triple (Attends i) (SupervisorStep i) (Stopping i fun s ↦ φ s ∧ s.fd = fd)
      (modifySession i ({ · with fd := 0 })) fun _ ↦ Stopping i fun s ↦ φ s ∧ s.fd = 0 :=
    steps_assigns hsome hzero (fun w hw ↦ .clearsFd hw.alone) (fun _ ↦ rfl)
      (fun _ ↦ rfl) fun s hs ↦ ⟨hclear s hs.1, rfl⟩
  refine .ite (fun hpos ↦ ?_) fun _ ↦ hforget
  refine (steps_polls _ _ hsome).bind fun seemsOpen ↦ .ite (fun _ ↦ ?_) fun _ ↦ hforget
  refine (steps_closes (f := (·.close fd)) hsome (fun w hw ↦ ?_)
    fun _ ↦ ⟨rfl, rfl, rfl⟩).bind fun _ ↦ hforget
  obtain ⟨hs, rfl⟩ := hw.session
  exact .closesFd m hw.alone (hm _ hs) howns hpos

theorem steps_closeMonitor (hφ : Lasting φ) :
    Prog.Triple (Attends i) (SupervisorStep i) (Stopping i φ) (closeMonitor i) fun _ ↦
      Stopping i φ := by
  refine (Prog.Triple.read_any _ (Stopping.stable hφ)).bind fun monitor ↦ ?_
  cases monitor with
  | none => exact .pure (Stopping.stable hφ) fun _ h ↦ h
  | some monitor =>
    refine steps_assigns hφ hφ (fun w _ ↦ ?_) (fun _ ↦ rfl) (fun _ ↦ rfl) fun s hs ↦ ?_
    · exact .tends (tends_modifySession w i fun _ ↦ rfl)
    · exact hφ s _ rfl hs

theorem lasting_state (Φ : SessionState → Prop) : Lasting (Φ ·.state) := by
  intro s s' hs h
  rw [unmoved_state s s' hs]
  exact h

/-- What a stopper leaves behind. -/
def Session.LeftBy (Φ : SessionState → Prop) (s : Session) : Prop :=
  Φ s.state ∧ s.pcapDumper = none

theorem Session.LeftBy.lasting (Φ : SessionState → Prop) : Lasting (Session.LeftBy Φ) :=
  (lasting_state Φ).and (lasting_of_eq unmoved_pcapDumper none)

theorem steps_decides {newState : SessionState} (hφ : Lasting φ)
    (hm : ∀ s, φ s → s.module = some m) (hnew : ∀ s, φ s → newState = s.stateAfterStop m)
    (hstart : ∀ s, φ s → newState = .start → m.Startable s.fd s.pcapHandle s.pcapDumper)
    (hΦ : ∀ s, φ s → Φ (s.stateAfterStop m)) (hdumper : ∀ s, φ s → s.pcapDumper = none) :
    Prog.Triple (Attends i) (SupervisorStep i) (Stopping i φ)
      (pcapsessionChangeState i newState) fun _ ↦ Stopping i (Session.LeftBy Φ) := by
  refine .modify (Stopping.stable hφ) (Stopping.stable (Session.LeftBy.lasting Φ)) (fun w hw ↦ ?_)
    fun w hw ↦ ?_
  · have hdecide := hnew _ hw.session
    subst hdecide
    exact .decides m hw.alone hw.used (hm _ hw.session) hw.detached (hstart _ hw.session)
  · refine hw.modifySession ?_ rfl ?_
    · change newState ≠ .unused
      rw [hnew _ hw.session]
      rcases (w.session i).stateAfterStop_cases m with h | h <;> rw [h] <;> decide
    · refine ⟨?_, hdumper (w.session i) hw.session⟩
      change Φ newState
      rw [hnew _ hw.session]
      exact hΦ _ hw.session

theorem steps_restart (hφ : Lasting φ) (hm : ∀ s, φ s → s.module = some m)
    (hother : m ≠ .clientconn ∧ m ≠ .filecapture)
    (hstart : ∀ s, φ s → m.Startable s.fd s.pcapHandle s.pcapDumper)
    (hΦ : ∀ s, φ s → Φ (s.stateAfterStop m)) (hdumper : ∀ s, φ s → s.pcapDumper = none) :
    Prog.Triple (Attends i) (SupervisorStep i) (Stopping i φ) (restartUnlessAborting i) fun _ ↦
      Stopping i (Session.LeftBy Φ) := by
  have hafter : ∀ s : Session, s.stateAfterStop m
      = if s.state = .aborting then .stopped else .start := by
    intro s
    cases m <;> first | rfl | exact absurd rfl hother.1 | exact absurd rfl hother.2
  refine (steps_reads hφ unmoved_state).bind fun state ↦ ?_
  have hstate := hφ.and (lasting_of_eq unmoved_state state)
  refine .ite (fun haborting ↦ ?_) fun haborting ↦ ?_
  · refine steps_decides hstate (fun s hs ↦ hm s hs.1) (fun s hs ↦ ?_) (fun _ _ h ↦ nomatch h)
      (fun s hs ↦ hΦ s hs.1) fun s hs ↦ hdumper s hs.1
    rw [hafter, hs.2, if_pos haborting]
  · refine steps_decides hstate (fun s hs ↦ hm s hs.1) (fun s hs ↦ ?_)
      (fun s hs _ ↦ hstart s hs.1) (fun s hs ↦ hΦ s hs.1) fun s hs ↦ hdumper s hs.1
    rw [hafter, hs.2, if_neg haborting]

/-- What a stopper knows of its session when it begins. -/
def Module.Stoppable (m : Module) (s : Session) : Prop :=
  s.module = some m ∧ (m ≠ .clientconn → m ≠ .merger → s.pcapDumper = none)

theorem Module.Stoppable.lasting (m : Module) : Lasting m.Stoppable := by
  rintro s s' hs ⟨hm, hdumper⟩
  rw [Module.Stoppable, unmoved_module s s' hs, unmoved_pcapDumper s s' hs]
  exact ⟨hm, hdumper⟩

/-- What a stopper knows, with what is said of the state it is going to decide on. -/
def Module.Stops (m : Module) (Φ : SessionState → Prop) (s : Session) : Prop :=
  m.Stoppable s ∧ Φ (s.stateAfterStop m)

theorem Module.Stops.lasting (m : Module) (Φ : SessionState → Prop) : Lasting (m.Stops Φ) := by
  intro s s' hs h
  have hafter : s'.stateAfterStop m = s.stateAfterStop m := by
    rw [Session.stateAfterStop.eq_def, Session.stateAfterStop.eq_def, unmoved_state s s' hs,
      unmoved_iterations s s' hs]
  refine ⟨Module.Stoppable.lasting m s s' hs h.1, ?_⟩
  rw [hafter]
  exact h.2

/-- A stopper other than that of client connections has nothing to take off the list. -/
theorem Alone.stopping (h : Alone i (m.Stops Φ) w) (hm : m ≠ .clientconn) :
    Stopping i (m.Stops Φ) w := by
  refine ⟨h, fun hconn ↦ absurd ?_ hm⟩
  exact Option.some.inj (h.session.1.1.symm.trans hconn)

theorem steps_pcapsessionClientStop :
    Prog.Triple (Attends i) (SupervisorStep i) (Stopping i (Module.Stops .client Φ))
      (pcapsessionClientStop i) fun _ ↦ Stopping i (Session.LeftBy Φ) := by
  have hlasting := Module.Stops.lasting .client Φ
  have hhandle := hlasting.and (lasting_of_eq unmoved_pcapHandle none)
  have hfd := hhandle.and (lasting_of_eq unmoved_fd 0)
  refine (steps_closePcapHandle hlasting fun _ h ↦ h).bind fun _ ↦ ?_
  refine (steps_closeOpenFd hhandle (fun _ h ↦ h.1.1.1) ⟨nofun, nofun⟩ fun _ h ↦ h).bind fun _ ↦ ?_
  refine (steps_closeMonitor hfd).bind fun _ ↦ ?_
  exact steps_restart hfd (fun _ h ↦ h.1.1.1.1) ⟨nofun, nofun⟩
    (fun _ h ↦ ⟨h.2, h.1.2, h.1.1.1.2 nofun nofun⟩) (fun _ h ↦ h.1.1.2)
    fun _ h ↦ h.1.1.1.2 nofun nofun

theorem steps_pcapsessionClientconnStop :
    Prog.Triple (Attends i) (SupervisorStep i) (Alone i (Module.Stops .clientconn Φ))
      (pcapsessionClientconnStop i) fun _ ↦ Stopping i (Session.LeftBy Φ) := by
  have hlasting := Module.Stops.lasting .clientconn Φ
  have hdumper := hlasting.and (lasting_of_eq unmoved_pcapDumper none)
  have hhandle := hdumper.and (lasting_of_eq unmoved_pcapHandle none)
  have hfd := hhandle.and (lasting_of_eq unmoved_fd 0)
  refine Prog.Triple.bind (Prog.Triple.modify (Alone.stable hlasting) (Stopping.stable hlasting)
    (fun w hw ↦ .unlists hw.alone hw.session.1.1) fun w hw ↦ ?_) fun _ ↦ ?_
  · exact ⟨⟨hw.used, hw.alone, hw.session⟩, fun _ ↦ Function.update_self ..⟩
  refine (steps_closePcapDumper hlasting fun _ h ↦
    ⟨⟨h.1.1, fun h' ↦ absurd rfl h'⟩, h.2⟩).bind fun _ ↦ ?_
  refine (steps_closePcapHandle hdumper fun _ h ↦ h).bind fun _ ↦ ?_
  refine (steps_closeOpenFd hhandle (fun _ h ↦ h.1.1.1.1) ⟨nofun, nofun⟩ fun _ h ↦ h).bind
    fun _ ↦ ?_
  refine (steps_closeMonitor hfd).bind fun _ ↦ ?_
  exact steps_decides hfd (fun _ h ↦ h.1.1.1.1.1) (fun _ _ ↦ rfl) (fun _ _ h ↦ nomatch h)
    (fun _ h ↦ h.1.1.1.2) fun _ h ↦ h.1.1.2

theorem steps_pcapsessionMergerStop :
    Prog.Triple (Attends i) (SupervisorStep i) (Stopping i (Module.Stops .merger Φ))
      (pcapsessionMergerStop i) fun _ ↦ Stopping i (Session.LeftBy Φ) := by
  have hlasting := Module.Stops.lasting .merger Φ
  have hdumper := hlasting.and (lasting_of_eq unmoved_pcapDumper none)
  have hhandle := hdumper.and (lasting_of_eq unmoved_pcapHandle none)
  have hfd := hhandle.and (lasting_of_eq unmoved_fd 0)
  refine (steps_closePcapDumper hlasting fun _ h ↦
    ⟨⟨h.1.1, fun _ h' ↦ absurd rfl h'⟩, h.2⟩).bind fun _ ↦ ?_
  refine (steps_closePcapHandle hdumper fun _ h ↦ h).bind fun _ ↦ ?_
  refine (steps_closeOpenFd hhandle (fun _ h ↦ h.1.1.1.1) ⟨nofun, nofun⟩ fun _ h ↦ h).bind
    fun _ ↦ ?_
  -- The descriptor has been cleared, so that it is not closed once more.
  refine .read_bind 0 (Stopping.stable hfd) (fun w hw ↦ hw.session.2) (.ite nofun fun _ ↦ ?_)
  refine (steps_closeMonitor hfd).bind fun _ ↦ ?_
  exact steps_restart hfd (fun _ h ↦ h.1.1.1.1.1) ⟨nofun, nofun⟩
    (fun _ h ↦ ⟨h.2, h.1.2, h.1.1.2⟩) (fun _ h ↦ h.1.1.1.2) fun _ h ↦ h.1.1.2

theorem steps_pcapsessionServerStop :
    Prog.Triple (Attends i) (SupervisorStep i) (Stopping i (Module.Stops .server Φ))
      (pcapsessionServerStop i) fun _ ↦ Stopping i (Session.LeftBy Φ) := by
  have hlasting := Module.Stops.lasting .server Φ
  have hrestart := steps_restart (i := i) hlasting (fun _ h ↦ h.1.1) ⟨nofun, nofun⟩
    (fun _ _ ↦ trivial) (fun _ h ↦ h.2) fun _ h ↦ h.1.2 nofun nofun
  refine (steps_reads hlasting unmoved_fd).bind fun fd ↦ .ite (fun hpos ↦ ?_) fun _ ↦
    hrestart.pre fun w hw ↦ ⟨⟨hw.used, hw.alone, hw.session.1⟩, hw.detached⟩
  have hfd := hlasting.and (lasting_of_eq unmoved_fd fd)
  refine (steps_closes (f := (·.close fd)) hfd (fun w hw ↦ ?_) fun _ ↦ ⟨rfl, rfl, rfl⟩).bind
    fun _ ↦ ?_
  · obtain ⟨hs, rfl⟩ := hw.session
    exact .closesFd .server hw.alone hs.1.1 ⟨nofun, nofun⟩ hpos
  exact (steps_assigns hfd hlasting (fun w hw ↦ .clearsFd hw.alone) (fun _ ↦ rfl) (fun _ ↦ rfl)
    fun _ hs ↦ hs.1).bind fun _ ↦ hrestart

theorem steps_pcapsessionLivecaptureStop :
    Prog.Triple (Attends i) (SupervisorStep i) (Stopping i (Module.Stops .livecapture Φ))
      (pcapsessionLivecaptureStop i) fun _ ↦ Stopping i (Session.LeftBy Φ) := by
  have hlasting := Module.Stops.lasting .livecapture Φ
  have hhandle := hlasting.and (lasting_of_eq unmoved_pcapHandle none)
  refine (steps_closePcapHandle hlasting fun _ h ↦ h).bind fun _ ↦ ?_
  refine (steps_closeMonitor hhandle).bind fun _ ↦ ?_
  exact steps_restart hhandle (fun _ h ↦ h.1.1.1) ⟨nofun, nofun⟩
    (fun _ h ↦ h.1.1.2 nofun nofun) (fun _ h ↦ h.1.2) fun _ h ↦ h.1.1.2 nofun nofun

theorem steps_pcapsessionFilecaptureStop :
    Prog.Triple (Attends i) (SupervisorStep i) (Stopping i (Module.Stops .filecapture Φ))
      (pcapsessionFilecaptureStop i) fun _ ↦ Stopping i (Session.LeftBy Φ) := by
  have hlasting := Module.Stops.lasting .filecapture Φ
  have hhandle := hlasting.and (lasting_of_eq unmoved_pcapHandle none)
  refine (steps_closePcapHandle hlasting fun _ h ↦ h).bind fun _ ↦ ?_
  refine (steps_closeMonitor hhandle).bind fun _ ↦ ?_
  refine (steps_reads hhandle unmoved_state).bind fun state ↦ ?_
  have hstate := hhandle.and (lasting_of_eq unmoved_state state)
  refine .ite (fun haborting ↦ ?_) fun haborting ↦ ?_
  · refine steps_decides hstate (fun _ h ↦ h.1.1.1.1) (fun s hs ↦ ?_) (fun _ _ h ↦ nomatch h)
      (fun _ h ↦ h.1.1.2) fun _ h ↦ h.1.1.1.2 nofun nofun
    rw [Session.stateAfterStop, if_pos (.inl (hs.2.trans haborting))]
  refine (steps_reads hstate unmoved_iterations).bind fun iterations ↦ ?_
  have hiterations := hstate.and (lasting_of_eq unmoved_iterations iterations)
  refine .ite (fun hzero ↦ ?_) fun hzero ↦ ?_
  · refine steps_decides hiterations (fun _ h ↦ h.1.1.1.1.1) (fun s hs ↦ ?_)
      (fun _ _ h ↦ nomatch h) (fun _ h ↦ h.1.1.1.2) fun _ h ↦ h.1.1.1.1.2 nofun nofun
    rw [Session.stateAfterStop, if_pos (.inr (hs.2.trans hzero))]
  · refine steps_decides hiterations (fun _ h ↦ h.1.1.1.1.1) (fun s hs ↦ ?_)
      (fun s hs _ ↦ ?_) (fun _ h ↦ h.1.1.1.2) fun _ h ↦ h.1.1.1.1.2 nofun nofun
    · rw [Session.stateAfterStop, if_neg]
      rw [hs.1.2, hs.2]
      exact fun h ↦ h.elim haborting hzero
    · exact ⟨hs.1.1.2, hs.1.1.1.1.2 nofun nofun⟩

/-- **Every stopper takes supervisor steps**, and leaves the session in the state that it was to
decide on when it began. -/
theorem steps_stopper (m : Module) :
    Prog.Triple (Attends i) (SupervisorStep i) (Alone i (m.Stops Φ)) (stopper m i) fun _ ↦
      Stopping i (Session.LeftBy Φ) := by
  cases m with
  | client => exact steps_pcapsessionClientStop.pre fun _ h ↦ h.stopping nofun
  | clientconn => exact steps_pcapsessionClientconnStop
  | merger => exact steps_pcapsessionMergerStop.pre fun _ h ↦ h.stopping nofun
  | server => exact steps_pcapsessionServerStop.pre fun _ h ↦ h.stopping nofun
  | livecapture => exact steps_pcapsessionLivecaptureStop.pre fun _ h ↦ h.stopping nofun
  | filecapture => exact steps_pcapsessionFilecaptureStop.pre fun _ h ↦ h.stopping nofun

end Stoppers

/-! ## Visits -/

section Visits

variable {i : Slot} {w : World}

theorem steps_releaseSlot :
    Prog.Triple (Attends i) (SupervisorStep i) (Stopping i (Session.LeftBy fun _ ↦ True))
      (do
        if (← readSession i (·.state)) = .stopped then
          pcapsessionChangeState i .unused) fun _ _ ↦ True := by
  have hleft := Session.LeftBy.lasting fun _ ↦ True
  refine (steps_reads hleft unmoved_state).bind fun state ↦ ?_
  have hstate := hleft.and (lasting_of_eq unmoved_state state)
  refine .ite (fun hstopped ↦ ?_) fun _ ↦ .pure (Stopping.stable hstate) fun _ _ ↦ trivial
  refine .modify (Stopping.stable hstate) (fun _ _ _ h ↦ h) (fun w hw ↦ ?_) fun _ _ ↦ trivial
  exact .releases hw.alone (hw.session.2.trans hstopped) hw.detached hw.session.1.2

theorem steps_stopAndRelease :
    Prog.Triple (Attends i) (SupervisorStep i) (Alone i fun _ ↦ True) (stopAndRelease i)
      fun _ _ ↦ True := by
  -- The module says what else is known of the session.
  have hmodule : ∀ m : Option Module, Lasting fun s ↦ ∀ m', m = some m' → m'.Stoppable s :=
    fun m s s' hs h m' hm' ↦ Module.Stoppable.lasting m' s s' hs (h m' hm')
  refine Prog.Triple.bind (Prog.Triple.read_at (Alone.stable fun _ _ _ _ ↦ trivial)
    (fun m ↦ Alone.stable (hmodule m)) fun w hR hw ↦ ?_) fun m ↦ ?_
  · exact ⟨hw.used, hw.alone, fun m hm ↦ ⟨hm, fun h h' ↦ (hR.orderly.tidy i).undumped hm h h'⟩⟩
  cases m with
  | none => exact Prog.Triple.stuck.bind fun _ ↦ steps_releaseSlot
  | some m =>
    refine Prog.Triple.bind ((steps_stopper (Φ := fun _ ↦ True) m).pre fun w hw ↦ ?_) fun _ ↦
      steps_releaseSlot
    exact ⟨hw.used, hw.alone, hw.session m rfl, trivial⟩

/-- The thread that the session remembers. -/
def Remembers (i : Slot) (t : ℕ) (w : World) : Prop := InUse i w ∧ (w.session i).thread = t

theorem Remembers.stable (t : ℕ) : Prog.Stable (Attends i) (Remembers i t) := fun w w' hR h ↦
  ⟨InUse.stable w w' hR h.1, (hR.fields h.1).1.trans h.2⟩

theorem Orderly.alone_joinThread (h : Orderly w) :
    ¬ (w.joinThread (w.session i).thread).HasThread i := by
  rintro ⟨t, m, ht⟩
  rw [World.threads_joinThread] at ht
  split at ht
  · cases ht
  · rename_i hne
    exact hne (h.lifecycle.thread_eq ht).symm

theorem Orderly.alone_of_zero (h : Orderly w) (hzero : (w.session i).thread = 0) :
    ¬ w.HasThread i := by
  rintro ⟨t, m, ht⟩
  have heq := h.lifecycle.thread_eq ht
  rw [hzero] at heq
  rw [← heq, h.lifecycle.threads_zero] at ht
  cases ht

theorem steps_pcapsessionStop :
    Prog.Triple (Attends i) (SupervisorStep i) (InUse i) (pcapsessionStop i) fun _ _ ↦ True := by
  have htrue : Lasting fun _ ↦ True := fun _ _ _ _ ↦ trivial
  refine Prog.Triple.bind (Prog.Triple.read InUse.stable Remembers.stable fun w hw ↦ ⟨hw, rfl⟩)
    fun t ↦ .ite (fun ht ↦ ?_) fun ht ↦ ?_
  · -- The thread is cancelled, joined and forgotten.
    have hcancelled : Prog.Stable (Attends i) fun w ↦ Remembers i t w ∧ w.cancelled t = true := by
      intro w w' hR h
      refine ⟨Remembers.stable t w w' hR h.1, ?_⟩
      rw [hR.cancelled]
      exact h.2
    refine Prog.Triple.bind (Prog.Triple.modify (Remembers.stable t) hcancelled (fun w hw ↦ ?_)
      fun w hw ↦ ⟨hw, Function.update_self ..⟩) fun _ ↦ ?_
    · obtain ⟨-, rfl⟩ := hw
      exact .cancels ht
    refine Prog.Triple.bind (M := fun _ ↦ Alone i fun _ ↦ True) (Prog.Triple.modify_at hcancelled
      (Alone.stable htrue) (fun w _ hw ↦ ?_) fun w hR hw ↦ ?_) fun _ ↦ ?_
    · obtain ⟨⟨-, rfl⟩, hcancelled⟩ := hw
      exact .joins ht hcancelled
    · obtain ⟨⟨hused, rfl⟩, -⟩ := hw
      exact ⟨hused, hR.orderly.alone_joinThread, trivial⟩
    refine Prog.Triple.bind (Prog.Triple.modify (Alone.stable htrue) (Alone.stable htrue)
      (fun w hw ↦ .forgets hw.alone) fun w hw ↦ ?_) fun _ ↦ steps_stopAndRelease
    refine ⟨?_, hw.alone, trivial⟩
    rw [World.session_modifySession_self]
    exact hw.used
  · have hzero : t = 0 := not_not.mp ht
    have halone : Prog.Stable (Attends i) (Alone i fun _ ↦ True) := Alone.stable htrue
    intro w hw
    refine Prog.Sat.of_rely fun w' hR ↦ steps_stopAndRelease w' ?_
    obtain ⟨hused, hthread⟩ := Remembers.stable t w w' hR hw
    exact ⟨hused, hR.orderly.alone_of_zero (hthread.trans hzero), trivial⟩

theorem steps_orders (newState : SessionState) {P Q : World → Prop}
    (hP : Prog.Stable (Attends i) P) (hQ : Prog.Stable (Attends i) Q)
    (hused : ∀ w, P w → InUse i w)
    (hnew : ∀ w, P w → newState = .terminate ∨ newState = .terminating ∨
      (newState = .abort ∨ newState = .aborting) ∧ w.handlingState ≠ .running)
    (h : ∀ w, P w → Q (w.setState i newState)) :
    Prog.Triple (Attends i) (SupervisorStep i) P (pcapsessionChangeState i newState) fun _ ↦ Q :=
  .modify hP hQ (fun w hw ↦ .orders newState (hused w hw) (hnew w hw)) h

theorem inUse_setState {newState : SessionState} (h : newState ≠ .unused) :
    InUse i (w.setState i newState) := by
  rw [InUse, World.state_setState]
  exact h

theorem steps_orderStop (newState : SessionState) {P : World → Prop}
    (hP : Prog.Stable (Attends i) P) (hused : ∀ w, P w → InUse i w)
    (hnew : ∀ w, P w → newState = .terminating ∨
      newState = .aborting ∧ w.handlingState ≠ .running) :
    Prog.Triple (Attends i) (SupervisorStep i) P (orderStop i newState) fun _ _ ↦ True := by
  refine Prog.Triple.bind (M := fun _ ↦ InUse i) (steps_orders newState hP InUse.stable hused
    (fun w hw ↦ ?_) fun w hw ↦ inUse_setState ?_) fun _ ↦ ?_
  · rcases hnew w hw with h | ⟨h, hclosed⟩
    · exact .inr (.inl h)
    · exact .inr (.inr ⟨.inr h, hclosed⟩)
  · rcases hnew w hw with rfl | ⟨rfl, -⟩ <;> decide
  refine Prog.Triple.bind (Prog.Triple.modify InUse.stable InUse.stable (fun w _ ↦ .counts 0)
    fun w hw ↦ ?_) fun _ ↦ steps_pcapsessionStop
  rw [InUse, World.session_modifySession_self]
  exact hw

/-- An abort has been ordered only if session handling is shutting down, and no stop is being
carried out. -/
structure Ordered (i : Slot) (w : World) : Prop where
  /-- The slot is in use. -/
  used : InUse i w
  /-- No stop is being carried out. -/
  notStopping : NotStopping (w.session i)
  /-- An abort is part of the shutdown. -/
  abort : (w.session i).state = .abort → w.handlingState ≠ .running

theorem Ordered.stable : Prog.Stable (Attends i) (Ordered i) := by
  intro w w' hR h
  refine ⟨InUse.stable w w' hR h.used, ?_, fun hstate ↦ hR.handling (h.abort ?_)⟩
  · rcases hR.state h.used with hsame | ⟨-, hstate | hstate⟩
    · rw [NotStopping, hsame]
      exact h.notStopping
    · simp [NotStopping, hstate]
    · simp [NotStopping, hstate]
  · rcases hR.state h.used with hsame | ⟨-, hstate' | hstate'⟩
    · exact hsame.symm.trans hstate
    · rw [hstate'] at hstate
      cases hstate
    · rw [hstate'] at hstate
      cases hstate

theorem Ordered.setState {newState : SessionState} (hnew : newState = .terminate ∨
    newState = .abort ∧ w.handlingState ≠ .running) : Ordered i (w.setState i newState) := by
  refine ⟨inUse_setState ?_, ?_, ?_⟩
  · rcases hnew with rfl | ⟨rfl, -⟩ <;> decide
  · rw [NotStopping, World.state_setState]
    rcases hnew with rfl | ⟨rfl, -⟩ <;> exact ⟨by decide, by decide⟩
  · rw [World.state_setState]
    rcases hnew with rfl | ⟨rfl, hclosed⟩
    · exact fun h ↦ absurd h (by decide)
    · exact fun _ ↦ hclosed

theorem steps_orderAbort :
    Prog.Triple (Attends i) (SupervisorStep i) (Ordered i) (orderAbort i) fun _ ↦ Ordered i := by
  have hclosed : ∀ handling : SessionState, Prog.Stable (Attends i) fun w ↦
      Ordered i w ∧ (handling ≠ .running → w.handlingState ≠ .running) := fun handling w w' hR h ↦
    ⟨Ordered.stable w w' hR h.1, fun hne ↦ hR.handling (h.2 hne)⟩
  refine Prog.Triple.bind (Prog.Triple.read Ordered.stable hclosed fun w hw ↦ ⟨hw, id⟩)
    fun handling ↦ .ite (fun hne ↦ ?_) fun _ ↦ .pure (hclosed handling) fun _ h ↦ h.1
  have hread := Prog.Triple.read_any (κ := Query) (G := SupervisorStep i)
    (fun w : World ↦ (w.session i).state) (hclosed handling)
  refine hread.bind fun state ↦ .ite (fun _ ↦ ?_) fun _ ↦ .pure (hclosed handling) fun _ h ↦ h.1
  refine hread.bind fun state ↦ .ite (fun _ ↦ ?_) fun _ ↦ .pure (hclosed handling) fun _ h ↦ h.1
  refine steps_orders .abort (hclosed handling) Ordered.stable (fun w hw ↦ hw.1.used)
    (fun w hw ↦ .inr (.inr ⟨.inl rfl, hw.2 hne⟩)) fun w hw ↦ ?_
  exact Ordered.setState (.inr ⟨rfl, hw.2 hne⟩)

theorem steps_checkDescriptor :
    Prog.Triple (Attends i) (SupervisorStep i) (Ordered i) (checkDescriptor i) fun _ ↦
      Ordered i := by
  refine (Prog.Triple.read_any _ Ordered.stable).bind fun supervised ↦ .ite (fun _ ↦ ?_) fun _ ↦
    .pure Ordered.stable fun _ h ↦ h
  refine (Prog.Triple.read_any _ Ordered.stable).bind fun fd ↦ .ite (fun _ ↦ ?_) fun _ ↦
    .pure Ordered.stable fun _ h ↦ h
  refine (Prog.Triple.read_any _ Ordered.stable).bind fun fd ↦ ?_
  refine Prog.Triple.bind ((Prog.Triple.query Ordered.stable fun _ _ h ↦ h).bind fun events ↦
    Prog.Triple.read_any _ Ordered.stable) fun seemsOpen ↦ .ite (fun _ ↦ ?_) fun _ ↦
    .pure Ordered.stable fun _ h ↦ h
  exact steps_orders .terminate Ordered.stable Ordered.stable (fun w hw ↦ hw.used)
    (fun w hw ↦ .inl rfl) fun w hw ↦ Ordered.setState (.inl rfl)

/-- What the visit knows of a session that it starts. -/
def Session.Starting (state : SessionState) (s : Session) : Prop :=
  s.state = state ∧ ∀ m, s.module = some m → m.Startable s.fd s.pcapHandle s.pcapDumper

theorem Session.Starting.lasting (state : SessionState) : Lasting (Session.Starting state) := by
  rintro s s' hs ⟨hstate, hstartable⟩
  refine ⟨(unmoved_state s s' hs).trans hstate, ?_⟩
  rw [unmoved_module s s' hs, unmoved_fd s s' hs, unmoved_pcapHandle s s' hs,
    unmoved_pcapDumper s s' hs]
  exact hstartable

theorem steps_pcapsessionStart :
    Prog.Triple (Attends i) (SupervisorStep i) (Alone i (Session.Starting .starting))
      (pcapsessionStart i) fun _ _ ↦ True := by
  have hstable := Alone.stable (i := i) (Session.Starting.lasting .starting)
  have htrue : Prog.Stable (Attends i) fun _ ↦ True := Prog.stable_true
  refine .read_bind .starting hstable (fun w hw ↦ hw.session.1) ?_
  refine Prog.Triple.bind (M := fun _ _ ↦ True) ?_ fun _ ↦ .pure htrue fun _ h ↦ h
  refine (Prog.Triple.query hstable fun _ _ h ↦ h).bind fun result ↦ ?_
  have hmodule : ∀ m, Lasting fun s ↦ s.Starting .starting ∧ s.module = m := fun m ↦
    (Session.Starting.lasting .starting).and (lasting_of_eq unmoved_module m)
  refine Prog.Triple.bind (Prog.Triple.read hstable (fun m ↦ Alone.stable (hmodule m))
    fun w hw ↦ ⟨hw.used, hw.alone, hw.session, rfl⟩) fun m ↦ ?_
  cases m with
  | none => exact Prog.Triple.stuck.bind fun _ ↦ .pure htrue fun _ h ↦ h
  | some m =>
    refine .ite (fun _ ↦ ?_) fun _ ↦ .pure (Alone.stable (hmodule (some m))) fun _ _ ↦ trivial
    refine Prog.Triple.bind (Prog.Triple.modify (Alone.stable (hmodule (some m))) htrue
      (fun w hw ↦ ?_) fun _ _ ↦ trivial) fun _ ↦ .pure htrue fun _ h ↦ h
    obtain ⟨⟨hstate, hstartable⟩, hm⟩ := hw.session
    exact .creates m hw.alone hstate hm (hstartable m hm)

theorem steps_countInterval {timedOut : SessionProg Unit}
    (h : Prog.Triple (Attends i) (SupervisorStep i) (InUse i) timedOut fun _ _ ↦ True) :
    Prog.Triple (Attends i) (SupervisorStep i) (InUse i) (countInterval i timedOut) fun _ _ ↦
      True := by
  refine (Prog.Triple.read_any _ InUse.stable).bind fun n ↦ .ite (fun _ ↦ h) fun _ ↦ ?_
  exact .modify InUse.stable (fun _ _ _ h ↦ h) (fun w _ ↦ .counts _) fun _ _ ↦ trivial

/-- What the visit knows when it has read a state to make a transition from. -/
structure Departs (i : Slot) (state : SessionState) (w : World) : Prop where
  /-- The slot is in use. -/
  used : InUse i w
  /-- The slot was in use. -/
  ne_unused : state ≠ .unused
  /-- No stop was being carried out. -/
  notStopping : state ≠ .terminating ∧ state ≠ .aborting
  /-- An abort is part of the shutdown. -/
  abort : state = .abort → w.handlingState ≠ .running
  /-- A session to be started is alone and fit for its runner. -/
  start : state = .start → Alone i (Session.Starting .start) w

theorem Departs.stable (state : SessionState) : Prog.Stable (Attends i) (Departs i state) :=
  fun w w' hR h ↦ ⟨InUse.stable w w' hR h.used, h.ne_unused, h.notStopping,
    fun hstate ↦ hR.handling (h.abort hstate),
    fun hstate ↦ Alone.stable (Session.Starting.lasting .start) w w' hR (h.start hstate)⟩

theorem steps_readTransition :
    Prog.Triple (Attends i) (SupervisorStep i) (Ordered i) (readSession i (·.state))
      (Departs i) := by
  refine .read_at Ordered.stable Departs.stable fun w hR hw ↦ ?_
  refine ⟨hw.used, hw.used, hw.notStopping, hw.abort, fun hstart ↦ ⟨hw.used, ?_, hstart, ?_⟩⟩
  · exact hR.orderly.lifecycle.idle (.inr hstart)
  · exact fun m hm ↦ (hR.orderly.tidy i).startable hstart hm

theorem steps_pcapsessionTransitionSession :
    Prog.Triple (Attends i) (SupervisorStep i) (Ordered i) (pcapsessionTransitionSession i)
      fun _ _ ↦ True := by
  have htrue : Prog.Stable (Attends i) fun _ ↦ True := Prog.stable_true
  refine steps_readTransition.bind fun state ↦ ?_
  cases state with
  -- A supervised slot is in use and no stop of it is under way.
  | unused => exact fun w h ↦ absurd rfl h.ne_unused
  | terminating => exact fun w h ↦ absurd rfl h.notStopping.1
  | aborting => exact fun w h ↦ absurd rfl h.notStopping.2
  | stopped => exact .pure (Departs.stable _) fun _ _ ↦ trivial
  | running => exact .pure (Departs.stable _) fun _ _ ↦ trivial
  | start =>
    -- Nobody else writes the slot between the read of the state and the start of the threads.
    have hstart := Alone.stable (i := i) (Session.Starting.lasting .start)
    have hstarting := Alone.stable (i := i) (Session.Starting.lasting .starting)
    refine Prog.Triple.pre (A := Alone i (Session.Starting .start)) ?_ fun w h ↦ h.start rfl
    refine Prog.Triple.bind (Prog.Triple.modify hstart hstarting
      (fun w hw ↦ .starts hw.alone hw.session.1) fun w hw ↦ ?_) fun _ ↦ ?_
    · refine ⟨?_, hw.alone, ?_⟩
      · rw [World.session_modifySession_self]
        nofun
      · rw [World.session_modifySession_self]
        exact ⟨rfl, hw.session.2⟩
    refine Prog.Triple.bind (Prog.Triple.modify hstarting hstarting (fun w _ ↦ .counts 0)
      fun w hw ↦ ?_) fun _ ↦ ?_
    · refine ⟨?_, hw.alone, ?_⟩
      · rw [World.session_modifySession_self]
        exact hw.used
      · rw [World.session_modifySession_self]
        exact hw.session
    exact steps_pcapsessionStart.bind fun _ ↦ .pure htrue fun _ h ↦ h
  | starting =>
    refine (steps_countInterval ?_).pre fun w h ↦ h.used
    exact steps_orders .terminate InUse.stable htrue (fun _ h ↦ h) (fun _ _ ↦ .inl rfl)
      fun _ _ ↦ trivial
  | terminate =>
    exact steps_orderStop .terminating (Departs.stable _) (fun w h ↦ h.used) fun w h ↦ .inl rfl
  | abort =>
    exact steps_orderStop .aborting (Departs.stable _) (fun w h ↦ h.used) fun w h ↦
      .inr ⟨rfl, h.abort rfl⟩

/-- **Every visit takes supervisor steps**, when it begins with no stop under way. -/
theorem steps_superviseSession (i : Slot) :
    Prog.Triple (Attends i) (SupervisorStep i) Quiet (superviseSession i) fun _ _ ↦ True := by
  have htrue : Prog.Stable (Attends i) fun _ ↦ True := Prog.stable_true
  have hquiet : Prog.Stable (Attends i) Quiet := fun w w' hR ↦
    Quiet.stable w w' hR.toInterference
  have hused : ∀ state : SessionState, Prog.Stable (Attends i) fun w ↦
      Quiet w ∧ (state ≠ .unused → InUse i w) := fun state w w' hR h ↦
    ⟨hquiet w w' hR h.1, fun hstate ↦ InUse.stable w w' hR (h.2 hstate)⟩
  refine Prog.Triple.bind (Prog.Triple.read hquiet hused fun w h ↦ ⟨h, id⟩) fun state ↦
    .ite (fun _ ↦ .pure (hused state) fun _ _ ↦ trivial) fun hstate ↦ ?_
  refine Prog.Triple.pre (A := Ordered i) ?_ fun w h ↦
    ⟨h.2 hstate, (h.1.calm i).2, fun habort ↦ absurd habort (h.1.calm i).1⟩
  refine steps_orderAbort.bind fun _ ↦ steps_checkDescriptor.bind fun _ ↦ ?_
  refine steps_pcapsessionTransitionSession.bind fun _ ↦ ?_
  exact .frame (within_tendSession i) htrue (fun _ _ _ h ↦ h) fun _ _ h _ ↦ .tends h

end Visits

end DistributorMerger
