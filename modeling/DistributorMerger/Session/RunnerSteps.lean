import DistributorMerger.Session.Lifecycle

/-!
# What runners do to descriptors

Every statement of every runner is one of a few kinds of steps. Some of them are only taken when the
session holds nothing, or holds exactly what the step is about; each runner knows this from its own
earlier statements, since nobody else assigns to the descriptor, the capture handle and the dumper
of a session while its thread is alive.
-/

namespace DistributorMerger

/-- A statement of the runner of module `m` in slot `i`. -/
inductive RunnerStep (i : Slot) : Module → World → World → Prop
  /-- It changes nothing. -/
  | pauses {m : Module} (w : World) : RunnerStep i m w w
  /-- It writes the state of the session. -/
  | writes {m : Module} (w : World) (newState : SessionState)
      (h : newState = .running ∨ newState = .terminate) :
      RunnerStep i m w (w.modifySession i ({ · with state := newState }))
  /-- It opens the monitor. -/
  | tends {m : Module} {w w' : World} (h : Tends w w') : RunnerStep i m w w'
  /-- A client gets a socket. -/
  | socket (w : World) (fd : ℤ) (hfd : w.grants fd = true) (hnone : (w.session i).fd = 0)
      (hhandle : (w.session i).pcapHandle = none) (hdumper : (w.session i).pcapDumper = none) :
      RunnerStep i .client w ((w.openFd fd .connection).modifySession i ({ · with fd := fd }))
  /-- A client does not get a socket. -/
  | socketFailed (w : World) (hnone : (w.session i).fd = 0)
      (hhandle : (w.session i).pcapHandle = none) (hdumper : (w.session i).pcapDumper = none) :
      RunnerStep i .client w (w.modifySession i ({ · with fd := -1 }))
  /-- A client opens a capture handle on its socket. -/
  | handle (w : World) (hfd : 0 < (w.session i).fd) (hhandle : (w.session i).pcapHandle = none)
      (hdumper : (w.session i).pcapDumper = none) :
      RunnerStep i .client w (w.modifySession i fun s ↦ { s with pcapHandle := some ⟨s.fd⟩ })
  /-- A client connection opens a dumper on its descriptor. -/
  | dumper (w : World) (hhandle : (w.session i).pcapHandle = none)
      (hdumper : (w.session i).pcapDumper = none) :
      RunnerStep i .clientconn w (w.openDumper i (w.session i).fd)
  /-- A client connection puts itself on the list. -/
  | lists (w : World) (hdumper : (w.session i).pcapDumper.isSome = true) :
      RunnerStep i .clientconn w
        { w with clientconnlist := Function.update w.clientconnlist i (some i) }
  /-- A merger opens its dump file. -/
  | dumpFile (w : World) (fd : ℤ) (hfd : w.grants fd = true) (hnone : (w.session i).fd = 0)
      (hhandle : (w.session i).pcapHandle = none) (hdumper : (w.session i).pcapDumper = none) :
      RunnerStep i .merger w ((w.openFd fd .file).openDumper i fd)
  /-- A merger takes over the descriptor of its dump file. -/
  | dumpFileFd (w : World) (dumper : PcapDumper) (hnone : (w.session i).fd = 0)
      (hhandle : (w.session i).pcapHandle = none)
      (hdumper : (w.session i).pcapDumper = some dumper) :
      RunnerStep i .merger w (w.modifySession i ({ · with fd := dumper.fd }))
  /-- A server accepts a connection. -/
  | accepts {w w' : World} (h : AcceptEffect w w') : RunnerStep i .server w w'
  /-- A capture closes its handle. -/
  | closesHandle {m : Module} (w : World) (handle : PcapHandle)
      (hm : m = .livecapture ∨ m = .filecapture)
      (hhandle : (w.session i).pcapHandle = some handle) :
      RunnerStep i m w (w.closeHandle i handle)
  /-- A file capture opens a file. -/
  | opensFile (w : World) (fd : ℤ) (hfd : w.grants fd = true)
      (hhandle : (w.session i).pcapHandle = none) (hdumper : (w.session i).pcapDumper = none) :
      RunnerStep i .filecapture w
        ((w.openFd fd .file).modifySession i ({ · with pcapHandle := some ⟨fd⟩ }))
  /-- A file capture assigns to fields that no descriptor hangs on. -/
  | notes (w : World) (f : Session → Session)
      (hf : ∀ s, f s = { s with fd := (f s).fd, superviseFd := (f s).superviseFd,
                                iterations := (f s).iterations, passes := (f s).passes }) :
      RunnerStep i .filecapture w (w.modifySession i f)

section Steps

variable {i j : Slot} {m : Module} {w w' : World}

/-- A runner does not touch the other slots, unless it accepts a connection. -/
theorem RunnerStep.unmoved_or_accepts (h : RunnerStep i m w w') (hj : j ≠ i) :
    (w.session j).Unmoved (w'.session j) ∨ AcceptEffect w w' := by
  cases h with
  | accepts h => exact .inr h
  | pauses => exact .inl (.refl _)
  | lists => exact .inl (.refl _)
  | tends h => exact .inl (h.session j)
  | writes => exact .inl (w.unmoved_modifySession_of_ne hj _)
  | socket _ fd => exact .inl ((w.openFd fd .connection).unmoved_modifySession_of_ne hj _)
  | socketFailed => exact .inl (w.unmoved_modifySession_of_ne hj _)
  | handle => exact .inl (w.unmoved_modifySession_of_ne hj _)
  | dumper =>
    exact .inl ({ w with nextDumper := w.nextDumper + 1 }.unmoved_modifySession_of_ne hj _)
  | dumpFile _ fd =>
    exact .inl ({ w.openFd fd .file with
      nextDumper := w.nextDumper + 1 }.unmoved_modifySession_of_ne hj _)
  | dumpFileFd => exact .inl (w.unmoved_modifySession_of_ne hj _)
  | closesHandle _ handle => exact .inl ((w.close handle.fd).unmoved_modifySession_of_ne hj _)
  | opensFile _ fd => exact .inl ((w.openFd fd .file).unmoved_modifySession_of_ne hj _)
  | notes => exact .inl (w.unmoved_modifySession_of_ne hj _)

theorem RunnerStep.unmoved (h : RunnerStep i m w w') (hj : j ≠ i)
    (hused : (w.session j).state ≠ .unused) : (w.session j).Unmoved (w'.session j) := by
  rcases h.unmoved_or_accepts hj with hunmoved | haccepts
  · exact hunmoved
  · exact haccepts.unmoved hused

theorem AcceptEffect.threads (h : AcceptEffect w w') :
    w'.threads = w.threads ∧ w'.nextThread = w.nextThread := by
  have hinit : ∀ w : World, w.initClientconnlist.threads = w.threads ∧
      w.initClientconnlist.nextThread = w.nextThread := by
    intro w
    rw [World.initClientconnlist]
    split <;> exact ⟨rfl, rfl⟩
  cases h with
  | nothing => exact ⟨rfl, rfl⟩
  | rejected fd hfd => exact hinit (w.openFd fd .connection)
  | accepted k fd hk hfd => exact hinit (w.openFd fd .connection)

theorem RunnerStep.module (h : RunnerStep i m w w') (hused : (w.session i).state ≠ .unused) :
    (w'.session i).module = (w.session i).module := by
  cases h with
  | pauses => rfl
  | lists => rfl
  | tends h => exact unmoved_module _ _ (h.session i)
  | accepts h => exact unmoved_module _ _ (h.unmoved hused)
  | notes _ f hf => rw [World.session_modifySession_self, hf]
  | _ => exact (congrArg Session.module (World.session_modifySession_self ..)).trans rfl

theorem RunnerStep.threads (h : RunnerStep i m w w') :
    w'.threads = w.threads ∧ w'.nextThread = w.nextThread := by
  cases h with
  | tends h =>
    refine ⟨?_, ?_⟩ <;> rw [h.rest]
  | accepts h => exact h.threads
  | _ => exact ⟨rfl, rfl⟩

/-- A statement that assigns to fields that the supervisor does not decide on. -/
theorem runnerEffect_modifySession {f : Session → Session}
    (hf : (f (w.session i)).state = (w.session i).state ∧
      (f (w.session i)).thread = (w.session i).thread ∧
      (f (w.session i)).intervalCounter = (w.session i).intervalCounter) :
    KeepsLifecycle w (w.modifySession i f) := by
  refine ⟨rfl, rfl, fun j ↦ ?_⟩
  by_cases hj : j = i
  · rw [hj, World.session_modifySession_self]
    exact hf
  · rw [World.session_modifySession_of_ne w hj]
    exact ⟨rfl, rfl, rfl⟩

/-- What a statement of a runner means for the lifecycle. -/
theorem RunnerStep.effect (h : RunnerStep i m w w') : RunnerEffect i w w' := by
  have hkeeps : ∀ {w₁ : World} {f : Session → Session}, KeepsLifecycle w w₁ →
      (f (w₁.session i)).state = (w₁.session i).state →
      (f (w₁.session i)).thread = (w₁.session i).thread →
      (f (w₁.session i)).intervalCounter = (w₁.session i).intervalCounter →
      RunnerEffect i w (w₁.modifySession i f) := by
    intro w₁ f hw hstate hthread hcounter
    exact .keeps (hw.trans (runnerEffect_modifySession ⟨hstate, hthread, hcounter⟩))
  have hsame : ∀ {w₁ : World}, w₁.threads = w.threads → w₁.nextThread = w.nextThread →
      w₁.session = w.session → KeepsLifecycle w w₁ := by
    intro w₁ hthreads hnext hsession
    refine ⟨hthreads, hnext, fun j ↦ ?_⟩
    rw [hsession]
    exact ⟨rfl, rfl, rfl⟩
  cases h with
  | pauses => exact .keeps (hsame rfl rfl rfl)
  | writes _ newState h => exact .writes newState h
  | tends h => exact .keeps (keepsLifecycle_of_tends h)
  | accepts h => exact .accepts h
  | lists => exact .keeps (hsame rfl rfl rfl)
  | socket _ fd => exact hkeeps (hsame rfl rfl rfl) rfl rfl rfl
  | socketFailed => exact hkeeps (hsame rfl rfl rfl) rfl rfl rfl
  | handle => exact hkeeps (hsame rfl rfl rfl) rfl rfl rfl
  | dumper => exact hkeeps (hsame rfl rfl rfl) rfl rfl rfl
  | dumpFile _ fd => exact hkeeps (hsame rfl rfl rfl) rfl rfl rfl
  | dumpFileFd => exact hkeeps (hsame rfl rfl rfl) rfl rfl rfl
  | closesHandle _ handle => exact hkeeps (hsame rfl rfl rfl) rfl rfl rfl
  | opensFile _ fd => exact hkeeps (hsame rfl rfl rfl) rfl rfl rfl
  | notes _ f hf =>
    refine hkeeps (hsame rfl rfl rfl) ?_ ?_ ?_ <;> rw [hf]

end Steps

/-- What the runner of slot `i` relies on. -/
def RunnerRely (i : Slot) (w w' : World) : Prop :=
  (w'.session i).fd = (w.session i).fd ∧ (w'.session i).pcapHandle = (w.session i).pcapHandle ∧
    (w'.session i).pcapDumper = (w.session i).pcapDumper

instance (i : Slot) : Std.Refl (RunnerRely i) := ⟨fun _ ↦ ⟨rfl, rfl, rfl⟩⟩

instance (i : Slot) : IsTrans World (RunnerRely i) :=
  ⟨fun _ _ _ h h' ↦ ⟨h'.1.trans h.1, h'.2.1.trans h.2.1, h'.2.2.trans h.2.2⟩⟩

theorem runnerRely_of_unmoved {i : Slot} {w w' : World}
    (h : (w.session i).Unmoved (w'.session i)) : RunnerRely i w w' :=
  ⟨unmoved_fd _ _ h, unmoved_pcapHandle _ _ h, unmoved_pcapDumper _ _ h⟩

instance (i : Slot) (m : Module) : Std.Refl (RunnerStep i m) := ⟨fun w ↦ .pauses w⟩

section Runners

variable {i : Slot} {m : Module} {w w' : World}
  {φ : ℤ → Option PcapHandle → Option PcapDumper → Prop}

/-- Something is known of what the session holds. -/
def Holds (i : Slot) (φ : ℤ → Option PcapHandle → Option PcapDumper → Prop) (w : World) : Prop :=
  φ (w.session i).fd (w.session i).pcapHandle (w.session i).pcapDumper

theorem Holds.stable : Prog.Stable (RunnerRely i) (Holds i φ) := by
  rintro w w' ⟨hfd, hhandle, hdumper⟩ h
  rw [Holds, hfd, hhandle, hdumper]
  exact h

theorem Holds.modifySession {f : Session → Session}
    (h : φ (f (w.session i)).fd (f (w.session i)).pcapHandle (f (w.session i)).pcapDumper) :
    Holds i φ (w.modifySession i f) := by
  rw [Holds, World.session_modifySession_self]
  exact h

theorem triple_writes {newState : SessionState} (h : newState = .running ∨ newState = .terminate) :
    Prog.Triple (RunnerRely i) (RunnerStep i m) (Holds i φ) (pcapsessionChangeState i newState)
      fun _ ↦ Holds i φ :=
  .modify Holds.stable Holds.stable (fun w _ ↦ .writes w newState h) fun _ h ↦ Holds.modifySession h

theorem triple_terminates :
    Prog.Triple (RunnerRely i) (RunnerStep i m) (Holds i φ) (pcapsessionChangeState i .terminate)
      fun _ _ ↦ True := (triple_writes (.inr rfl)).weaken (fun _ h ↦ h) fun _ _ _ ↦ trivial

theorem triple_monitorOpenSession :
    Prog.Triple (RunnerRely i) (RunnerStep i m) (Holds i φ) (monitorOpenSession m i)
      fun _ ↦ Holds i φ := by
  refine .frame (within_monitorOpenSession m i) Holds.stable (fun w w' htends h ↦ ?_)
    fun w w' htends _ ↦ .tends htends
  rw [Holds, htends.session i]
  exact h

theorem triple_query (q : Query) :
    Prog.Triple (RunnerRely i) (RunnerStep i m) (Holds i φ) (Prog.query q) fun _ ↦ Holds i φ :=
  .query Holds.stable fun _ _ h ↦ h

theorem triple_pcapsessionClientRun :
    Prog.Triple (RunnerRely i) (RunnerStep i .client)
      (Holds i fun fd handle dumper ↦ fd = 0 ∧ handle = none ∧ dumper = none)
      (pcapsessionClientRun i) fun _ _ ↦ True := by
  refine (triple_writes (.inl rfl)).bind fun _ ↦ (triple_query _).bind fun fd ↦ ?_
  -- The socket, or `-1` in its place.
  refine Prog.Triple.bind (M := fun _ ↦ Holds i fun fd handle dumper ↦
    (fd < 0 ∨ 0 < fd) ∧ handle = none ∧ dumper = none) (.modify Holds.stable Holds.stable
      (fun w h ↦ ?_) fun w h ↦ ?_) fun _ ↦ ?_
  · split
    · exact .socket w fd ‹_› h.1 h.2.1 h.2.2
    · exact .socketFailed w h.1 h.2.1 h.2.2
  · split
    · rename_i hfd
      have hpos : 0 < fd := (of_decide_eq_true hfd).1
      exact Holds.modifySession ⟨.inr hpos, h.2⟩
    · exact Holds.modifySession ⟨.inl (Int.negSucc_lt_zero 0), h.2⟩
  refine Prog.Triple.bind (M := fun fd ↦ Holds i fun fd' handle dumper ↦
    fd' = fd ∧ (fd < 0 ∨ 0 < fd) ∧ handle = none ∧ dumper = none)
    (.read Holds.stable (fun _ ↦ Holds.stable) fun w h ↦ ⟨rfl, h⟩) fun fd ↦
    .ite (fun _ ↦ triple_terminates) fun hfd ↦ ?_
  refine (triple_query _).bind fun connected ↦ .ite (fun _ ↦ triple_terminates) fun _ ↦ ?_
  refine triple_monitorOpenSession.bind fun _ ↦ (triple_query _).bind fun opened ↦ ?_
  refine Prog.Triple.bind (M := fun _ ↦ Holds i fun _ _ _ ↦ True) (.modify Holds.stable
    Holds.stable (fun w h ↦ ?_) fun w _ ↦ Holds.modifySession trivial) fun _ ↦ ?_
  · obtain ⟨hfd', hsign, hhandle, hdumper⟩ := h
    by_cases hopened : opened = 0
    · simp only [hopened, if_true]
      refine .handle w ?_ hhandle hdumper
      omega
    · simp only [hopened, if_false]
      rw [World.modifySession_of_eq]
      · exact .pauses w
      · rw [← hhandle]
  refine (Prog.Triple.read_any _ Holds.stable).bind fun handle ↦
    .ite (fun _ ↦ triple_terminates) fun _ ↦ ?_
  exact (triple_query _).bind fun _ ↦ triple_terminates

theorem triple_pcapsessionClientconnRun :
    Prog.Triple (RunnerRely i) (RunnerStep i .clientconn)
      (Holds i fun _ handle dumper ↦ handle = none ∧ dumper = none)
      (pcapsessionClientconnRun i) fun _ _ ↦ True := by
  refine (triple_writes (.inl rfl)).bind fun _ ↦ triple_monitorOpenSession.bind fun _ ↦ ?_
  refine (triple_query _).bind fun opened ↦ ?_
  refine Prog.Triple.bind (M := fun _ ↦ Holds i fun _ _ _ ↦ True) (.modify Holds.stable
    Holds.stable (fun w h ↦ ?_) fun _ _ ↦ trivial) fun _ ↦ ?_
  · split
    · exact .dumper w h.1 h.2
    · rw [World.modifySession_of_eq]
      · exact .pauses w
      · rw [← h.2]
  refine Prog.Triple.bind (M := fun dumper ↦ Holds i fun _ _ dumper' ↦ dumper' = dumper)
    (.read Holds.stable (fun _ ↦ Holds.stable) fun w h ↦ rfl) fun dumper ↦
    .ite (fun _ ↦ triple_terminates) fun hdumper ↦ ?_
  refine .modify Holds.stable (fun _ _ _ h ↦ h) (fun w h ↦ .lists w ?_) fun _ _ ↦ trivial
  have h : (w.session i).pcapDumper = dumper := h
  rw [h]
  cases dumper with
  | none => exact absurd rfl hdumper
  | some dumper => rfl

theorem triple_pcapsessionMergerRun :
    Prog.Triple (RunnerRely i) (RunnerStep i .merger)
      (Holds i fun fd handle dumper ↦ fd = 0 ∧ handle = none ∧ dumper = none)
      (pcapsessionMergerRun i) fun _ _ ↦ True := by
  refine (triple_writes (.inl rfl)).bind fun _ ↦ triple_monitorOpenSession.bind fun _ ↦ ?_
  refine (triple_query _).bind fun fd ↦ ?_
  refine Prog.Triple.bind (M := fun _ ↦ Holds i fun fd handle _ ↦ fd = 0 ∧ handle = none)
    (.modify Holds.stable Holds.stable (fun w h ↦ ?_) fun w h ↦ ?_) fun _ ↦ ?_
  · split
    · exact .dumpFile w fd ‹_› h.1 h.2.1 h.2.2
    · rw [World.modifySession_of_eq]
      · exact .pauses w
      · rw [← h.2.2]
  · split
    · exact Holds.modifySession ⟨h.1, h.2.1⟩
    · exact Holds.modifySession ⟨h.1, h.2.1⟩
  refine Prog.Triple.bind (M := fun dumper ↦ Holds i fun fd handle dumper' ↦
    fd = 0 ∧ handle = none ∧ dumper' = dumper)
    (.read Holds.stable (fun _ ↦ Holds.stable) fun w h ↦ ⟨h.1, h.2, rfl⟩) fun dumper ↦ ?_
  cases dumper with
  | none => exact triple_terminates
  | some dumper =>
    exact .modify Holds.stable (fun _ _ _ h ↦ h)
      (fun w h ↦ .dumpFileFd w dumper h.1 h.2.1 h.2.2) fun _ _ ↦ trivial

theorem triple_serverLoop (rounds : ℕ) :
    Prog.Triple (RunnerRely i) (RunnerStep i .server) (Holds i fun _ _ _ ↦ True)
      (serverLoop i rounds) fun _ _ ↦ True := by
  induction rounds with
  | zero => exact .pure Holds.stable fun _ h ↦ h
  | succ rounds ih =>
    refine (Prog.Triple.read_any _ Holds.stable).bind fun state ↦ .ite (fun _ ↦ ?_) fun _ ↦ ?_
    · refine (Prog.Triple.read_any _ Holds.stable).bind fun fd ↦ (triple_query _).bind
        fun accepted ↦ ?_
      refine Prog.Triple.bind (M := fun _ ↦ Holds i fun _ _ _ ↦ True) ?_ fun result ↦ ?_
      · intro w h w₁ h₁ w₂ h₂
        refine ⟨?_, fun _ _ ↦ trivial⟩
        obtain ⟨⟨z, w₂⟩, hexec, rfl⟩ := Option.map_eq_some_iff.mp h₂
        exact .accepts (acceptEffect_of_exec hexec)
      · have hrest : Prog.Triple (RunnerRely i) (RunnerStep i .server) (Holds i fun _ _ _ ↦ True)
            (if result < 0 then pure () else serverLoop i rounds) fun _ _ ↦ True :=
          .ite (fun _ ↦ .pure Holds.stable fun _ h ↦ h) fun _ ↦ ih
        exact .ite (fun _ ↦ (triple_writes (.inr rfl)).bind fun _ ↦ hrest) fun _ ↦ hrest
    · exact .pure Holds.stable fun _ h ↦ h

theorem triple_pcapsessionServerRun :
    Prog.Triple (RunnerRely i) (RunnerStep i .server) (Holds i fun _ _ _ ↦ True)
      (pcapsessionServerRun i) fun _ _ ↦ True := by
  refine (triple_writes (.inl rfl)).bind fun _ ↦ (triple_query _).bind fun rounds ↦ ?_
  exact triple_serverLoop rounds.toNat

theorem triple_closeHandle (hm : m = .livecapture ∨ m = .filecapture) (handle : PcapHandle) :
    Prog.Triple (RunnerRely i) (RunnerStep i m)
      (Holds i fun _ handle' dumper ↦ handle' = some handle ∧ dumper = none)
      (Prog.modify (·.closeHandle i handle) : SessionProg Unit) fun _ ↦
        Holds i fun _ handle dumper ↦ handle = none ∧ dumper = none :=
  .modify Holds.stable Holds.stable (fun w h ↦ .closesHandle w handle hm h.1)
    fun _ h ↦ Holds.modifySession ⟨rfl, h.2⟩

theorem triple_pcapsessionLivecaptureRun :
    Prog.Triple (RunnerRely i) (RunnerStep i .livecapture)
      (Holds i fun _ _ dumper ↦ dumper = none)
      (pcapsessionLivecaptureRun i) fun _ _ ↦ True := by
  refine (triple_writes (.inl rfl)).bind fun _ ↦ triple_monitorOpenSession.bind fun _ ↦ ?_
  refine Prog.Triple.bind (M := fun handle ↦ Holds i fun _ handle' dumper ↦
    handle' = handle ∧ dumper = none) (.read Holds.stable (fun _ ↦ Holds.stable)
    fun w h ↦ ⟨rfl, h⟩) fun handle ↦ ?_
  cases handle with
  | none => exact Prog.Triple.stuck.bind fun _ ↦ triple_terminates (φ := fun _ _ _ ↦ True)
  | some handle =>
    refine (triple_query _).bind fun _ ↦ (triple_closeHandle (.inl rfl) handle).bind fun _ ↦ ?_
    exact triple_terminates

theorem triple_notes (f : Session → Session)
    (hf : ∀ s, f s = { s with fd := (f s).fd, superviseFd := (f s).superviseFd,
                              iterations := (f s).iterations, passes := (f s).passes })
    {φ : Option PcapHandle → Option PcapDumper → Prop} :
    Prog.Triple (RunnerRely i) (RunnerStep i .filecapture) (Holds i fun _ handle dumper ↦
      φ handle dumper) (modifySession i f) fun _ ↦ Holds i fun _ handle dumper ↦
        φ handle dumper := by
  refine .modify Holds.stable Holds.stable (fun w _ ↦ .notes w f hf) fun w h ↦ ?_
  refine Holds.modifySession ?_
  rw [hf]
  exact h

theorem triple_streamFiles (files : ℕ) :
    Prog.Triple (RunnerRely i) (RunnerStep i .filecapture)
      (Holds i fun _ handle dumper ↦ handle = none ∧ dumper = none) (streamFiles i files)
      fun _ ↦ Holds i fun _ handle dumper ↦ handle = none ∧ dumper = none := by
  induction files with
  | zero => exact .pure Holds.stable fun _ h ↦ h
  | succ files ih =>
    refine (triple_query _).bind fun fd ↦ ?_
    refine Prog.Triple.bind (M := fun _ ↦ Holds i fun _ _ dumper ↦ dumper = none)
      (.modify Holds.stable Holds.stable (fun w h ↦ ?_) fun w h ↦ ?_) fun _ ↦ ?_
    · split
      · exact .opensFile w fd ‹_› h.1 h.2
      · rw [World.modifySession_of_eq]
        · exact .pauses w
        · rw [← h.1]
    · split
      · exact Holds.modifySession h.2
      · exact Holds.modifySession h.2
    refine Prog.Triple.bind (M := fun handle ↦ Holds i fun _ handle' dumper ↦
      handle' = handle ∧ dumper = none) (.read Holds.stable (fun _ ↦ Holds.stable)
      fun w h ↦ ⟨rfl, h⟩) fun handle ↦ ?_
    cases handle with
    | none =>
      exact (triple_writes (.inr rfl)).bind fun _ ↦ .pure Holds.stable fun _ h ↦ h
    | some handle =>
      refine (triple_query _).bind fun selectable ↦ ?_
      refine (triple_notes _ fun _ ↦ rfl).bind fun _ ↦ (triple_notes _ fun _ ↦ rfl).bind fun _ ↦ ?_
      refine (triple_query _).bind fun _ ↦ ?_
      refine (triple_notes _ fun _ ↦ rfl).bind fun _ ↦ (triple_notes _ fun _ ↦ rfl).bind fun _ ↦ ?_
      exact (triple_closeHandle (.inr rfl) handle).bind fun _ ↦ ih

theorem triple_filePasses (rounds : ℕ) :
    Prog.Triple (RunnerRely i) (RunnerStep i .filecapture)
      (Holds i fun _ handle dumper ↦ handle = none ∧ dumper = none) (filePasses i rounds)
      fun _ _ ↦ True := by
  induction rounds with
  | zero => exact .pure Holds.stable fun _ _ ↦ trivial
  | succ rounds ih =>
    refine (triple_notes _ fun _ ↦ rfl).bind fun _ ↦ (triple_query _).bind fun opened ↦
      .ite (fun _ ↦ triple_terminates) fun _ ↦ ?_
    refine (triple_query _).bind fun files ↦ (triple_streamFiles _).bind fun all ↦
      .ite (fun _ ↦ ?_) fun _ ↦ .pure Holds.stable fun _ _ ↦ trivial
    refine (Prog.Triple.read_any _ Holds.stable).bind fun iterations ↦ ?_
    exact .ite (fun _ ↦ ih) fun _ ↦ triple_terminates

theorem triple_pcapsessionFilecaptureRun :
    Prog.Triple (RunnerRely i) (RunnerStep i .filecapture)
      (Holds i fun _ handle dumper ↦ handle = none ∧ dumper = none)
      (pcapsessionFilecaptureRun i) fun _ _ ↦ True := by
  refine (triple_writes (.inl rfl)).bind fun _ ↦ triple_monitorOpenSession.bind fun _ ↦ ?_
  exact (triple_query _).bind fun rounds ↦ triple_filePasses rounds.toNat

/-! ## All runners -/

/-- What a session of module `m` holds when its runner is started. -/
def Module.Startable : Module → ℤ → Option PcapHandle → Option PcapDumper → Prop
  | .client, fd, handle, dumper | .merger, fd, handle, dumper =>
    fd = 0 ∧ handle = none ∧ dumper = none
  | .clientconn, _, handle, dumper | .filecapture, _, handle, dumper =>
    handle = none ∧ dumper = none
  | .server, _, _, _ => True
  | .livecapture, _, _, dumper => dumper = none

/-- **Every runner takes runner steps**, when it is started on a session that is fit for it. -/
theorem triple_runner (m : Module) (i : Slot) :
    Prog.Triple (RunnerRely i) (RunnerStep i m) (Holds i m.Startable) (runner m i)
      fun _ _ ↦ True := by
  cases m with
  | client => exact triple_pcapsessionClientRun
  | clientconn => exact triple_pcapsessionClientconnRun
  | merger => exact triple_pcapsessionMergerRun
  | server => exact triple_pcapsessionServerRun
  | livecapture => exact triple_pcapsessionLivecaptureRun
  | filecapture => exact triple_pcapsessionFilecaptureRun

end Runners

end DistributorMerger
