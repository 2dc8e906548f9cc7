import DistributorMerger.Session.Open
import DistributorMerger.Session.VisitWrites

/-!
# Start-up and shutdown of the process

The main thread of the distributer registers its signal handler, initialises session handling,
opens the server and the capture, and waits for the supervision thread. The supervision thread makes
session handling `RUNNING` when it begins. A termination signal closes session handling, and may
arrive at any time once the handler is registered.

All three write `session_handling_state`, and none of them looks at what it overwrites. An order to
shut down therefore survives only if it comes after the supervision thread has begun.
-/

namespace DistributorMerger

/-! ## The process -/

/-- How far the supervision thread has come. -/
inductive SupervisionThread
  /-- It has not been created. -/
  | absent
  /-- It has been created and has executed nothing yet. -/
  | created
  /-- It supervises. -/
  | supervising
  /-- It has returned. -/
  | finished
  deriving DecidableEq, Repr

/-- The state of the process. -/
structure Process where
  /-- What the threads of session handling share. -/
  world : World
  /-- The signal handler has been registered. -/
  registered : Bool
  /-- `shutdown_ordered`. -/
  shutdownOrdered : Bool
  /-- The supervision thread. -/
  supervision : SupervisionThread
  /-- `pcapsession_handling_close` has run. -/
  closed : Bool
  /-- The main thread has joined what it takes for the supervision thread. -/
  joined : Bool

/-- The process when `main` is called: session handling is `STOPPED`. -/
def Process.init : Process where
  world := { World.init with handlingState := .stopped }
  registered := false
  shutdownOrdered := false
  supervision := .absent
  closed := false
  joined := false

/-- A program of the process. -/
abbrev ProcessProg := Prog Query Process

/-- A program of session handling, as a program of the process. -/
def inWorld {α : Type} (p : SessionProg α) : ProcessProg α :=
  p.zoom Process.world fun s w ↦ { s with world := w }

/-- Assign to `session_handling_state`. -/
def Process.setHandlingState (s : Process) (newState : SessionState) : Process :=
  { s with world := { s.world with handlingState := newState } }

/-! ## Its threads -/

/-- `pcapsession_handling_init`. The session list is cleared before anybody else looks at it. -/
def pcapsessionHandlingInit : ProcessProg Bool := do
  if (← Prog.read (·.world.handlingState)) = .stopped then
    Prog.modify (·.setHandlingState .starting)
    inWorld (Prog.modify ({ · with session := fun _ ↦ Session.zero }))
    if (← Prog.query .pthreadCreateSupervision) ≠ 0 then
      pure false
    else
      Prog.modify ({ · with supervision := .created })
      Prog.await (fun s ↦ s.world.handlingState ≠ .starting) id
      pure true
  else pure true

/-- `sighandler`, with `pcapsession_handling_close` in its place. -/
def sighandler : ProcessProg Unit := do
  if ← Prog.read (·.shutdownOrdered) then
    pure ()
  else
    Prog.modify ({ · with shutdownOrdered := true })
    Prog.modify fun s ↦ { s.setHandlingState .terminating with closed := true }

/-- The supervision thread, from its creation on. -/
def supervisionThread : ProcessProg Unit := do
  Prog.await (fun s ↦ s.supervision = .created)
    fun s ↦ { s.setHandlingState .running with supervision := .supervising }
  let rounds ← Prog.query .rounds
  if ← inWorld (pcapsessionSupervisionRun rounds.toNat) then
    Prog.modify ({ · with supervision := .finished })

/-- `pthread_join` for the supervision thread: it waits for a thread that exists. -/
def joinSupervision : ProcessProg Unit :=
  Prog.await (fun s ↦ s.supervision = .absent ∨ s.supervision = .finished)
    ({ · with joined := true })

/-- `main` of the distributer, for a live capture or for some passes over capture files. -/
def distributerMain (live : Bool) (iterations : ℤ) : ProcessProg Unit := do
  Prog.modify ({ · with registered := true })
  if (← Prog.query .configuration) < 0 then
    pure ()
  else if !(← pcapsessionHandlingInit) then
    pure ()
  else if (← inWorld pcapsessionServerOpen).isNone then
    pure ()
  else
    let capture ← inWorld
      (if live then pcapsessionLivecaptureOpen else pcapsessionFilecaptureOpen iterations)
    if capture.isNone then
      pure ()
    else
      joinSupervision
      sighandler

/-- A termination signal, which is delivered in a state that satisfies `deliverable`. -/
def terminationSignal (deliverable : Process → Bool) : ProcessProg Unit := do
  Prog.await deliverable id
  sighandler

/-- Who takes part. -/
inductive Party
  /-- The main thread. -/
  | main
  /-- The supervision thread. -/
  | supervision
  /-- One of any number of signals. -/
  | signal (n : ℕ)
  deriving DecidableEq, Repr

/-- The programs of the process. -/
def parties (deliverable : Process → Bool) (live : Bool) (iterations : ℤ) : Party → ProcessProg Unit
  | .main => distributerMain live iterations
  | .supervision => supervisionThread
  | .signal _ => terminationSignal deliverable

/-! ## Who writes the handling state -/

/-- A statement leaves `session_handling_state` alone. -/
def KeepsHandling (w w' : World) : Prop := w'.handlingState = w.handlingState

instance : Std.Refl KeepsHandling := ⟨fun _ ↦ rfl⟩

section Keeps

variable (i : Slot)

theorem keepsHandling_modify {f : World → World} (h : ∀ w, KeepsHandling w (f w)) :
    (Prog.modify f : SessionProg Unit).Within KeepsHandling := .modify h

theorem keepsHandling_modifySession (f : Session → Session) :
    (modifySession i f).Within KeepsHandling := .modify fun _ ↦ rfl

theorem keepsHandling_of_writes {α : Type} {p : SessionProg α} {i : Slot}
    (h : p.Within (VisitWrites (fun _ ↦ True) i)) : p.Within KeepsHandling :=
  h.mono fun _ _ hw ↦ hw.handlingState

theorem keepsHandling_superviseSession : (superviseSession i).Within KeepsHandling := by
  have htend : ∀ {α : Type} {p : SessionProg α}, p.Within Tends → p.Within KeepsHandling :=
    fun h ↦ h.mono fun w w' htends ↦ by
      rw [KeepsHandling, htends.rest]
  refine (Prog.Within.read _).bind fun state ↦ .ite (.pure false) ?_
  refine (keepsHandling_of_writes (writes_orderAbort trivial)).bind fun _ ↦
    (keepsHandling_of_writes (writes_checkDescriptor trivial)).bind fun _ ↦ ?_
  rw [pcapsessionTransitionSession_eq]
  refine Prog.Within.bind ((Prog.Within.read _).bind fun state ↦ ?_) fun _ ↦
    (Prog.Within.read _).bind fun state ↦ .ite ?_ (.pure true)
  · exact keepsHandling_of_writes (writes_transitionFrom (fun _ _ ↦ trivial) fun _ ↦ trivial)
  · exact (htend (within_flushIdleDumper i)).bind fun _ ↦ (htend (within_superviseMonitor i)).bind
      fun _ ↦ .pure true

theorem keepsHandling_superviseSessions (slots : List Slot) :
    (superviseSessions slots).Within KeepsHandling := by
  induction slots with
  | nil => exact .pure 0
  | cons i slots ih =>
    exact (keepsHandling_superviseSession i).bind fun _ ↦ ih.bind fun _ ↦ .pure _

theorem keepsHandling_openSession {fill : Slot → SessionProg Bool}
    (h : ∀ i, (fill i).Within KeepsHandling) : (openSession fill).Within KeepsHandling := by
  have hfind : ∀ slots, (findUnused slots).Within KeepsHandling := by
    intro slots
    induction slots with
    | nil => exact .pure none
    | cons i slots ih => exact (Prog.Within.read _).bind fun _ ↦ .ite (.pure (some i)) ih
  refine Prog.Within.bind ?_ fun slot ↦ ?_
  · refine (hfind _).bind fun slot ↦ ?_
    cases slot with
    | none => exact .pure none
    | some i =>
      iterate 4 refine (keepsHandling_modifySession i _).bind fun _ ↦ ?_
      exact .pure (some i)
  · cases slot with
    | none => exact .pure none
    | some i =>
      refine (h i).bind fun filled ↦ .ite (Prog.Within.bind ?_ fun _ ↦ .pure (some i)) (.pure none)
      exact (keepsHandling_modifySession i _).bind fun _ ↦ (keepsHandling_modifySession i _).bind
        fun _ ↦ .pure true

theorem keepsHandling_pcapsessionServerOpen : pcapsessionServerOpen.Within KeepsHandling := by
  refine keepsHandling_openSession fun i ↦ (keepsHandling_modifySession i _).bind fun _ ↦ ?_
  refine (keepsHandling_modifySession i _).bind fun _ ↦ (Prog.Within.query _).bind fun fd ↦ ?_
  refine (Prog.Within.read _).bind fun granted ↦ .ite ?_ ?_
  · exact (keepsHandling_modify fun _ ↦ by rfl).bind fun _ ↦ (keepsHandling_modifySession i _).bind
      fun _ ↦ .pure true
  · exact (keepsHandling_modifySession i _).bind fun _ ↦ (keepsHandling_modifySession i _).bind
      fun _ ↦ .pure false

theorem keepsHandling_pcapsessionLivecaptureOpen :
    pcapsessionLivecaptureOpen.Within KeepsHandling := by
  refine keepsHandling_openSession fun i ↦ (keepsHandling_modifySession i _).bind fun _ ↦ ?_
  refine (Prog.Within.query _).bind fun fd ↦ (Prog.Within.read _).bind fun granted ↦ .ite ?_ ?_
  · refine (keepsHandling_modify fun _ ↦ by rfl).bind fun _ ↦ (Prog.Within.query _).bind fun _ ↦ ?_
    exact (keepsHandling_modifySession i _).bind fun _ ↦ (keepsHandling_modifySession i _).bind
      fun _ ↦ .pure true
  · exact (keepsHandling_modifySession i _).bind fun _ ↦ (keepsHandling_modifySession i _).bind
      fun _ ↦ .pure false

theorem keepsHandling_pcapsessionFilecaptureOpen (iterations : ℤ) :
    (pcapsessionFilecaptureOpen iterations).Within KeepsHandling :=
  keepsHandling_openSession fun i ↦ (keepsHandling_modifySession i _).bind fun _ ↦
    (keepsHandling_modifySession i _).bind fun _ ↦ .pure true

end Keeps

/-- A statement of session handling that may also say that handling has stopped. -/
def KeepsOrStops (s s' : Process) : Prop :=
  s' = { s with world := s'.world } ∧
    (s'.world.handlingState = s.world.handlingState ∨ s'.world.handlingState = .stopped)

theorem keepsOrStops_inWorld {α : Type} {p : SessionProg α} (h : p.Within KeepsHandling) :
    (inWorld p).Within KeepsOrStops := h.zoom fun _ _ hw ↦ ⟨rfl, .inl hw⟩

theorem keepsOrStops_pcapsessionSupervisionRun (rounds : ℕ) :
    (inWorld (pcapsessionSupervisionRun rounds)).Within KeepsOrStops := by
  have hrun : (pcapsessionSupervisionRun rounds).Within fun w w' ↦
      w'.handlingState = w.handlingState ∨ w'.handlingState = .stopped := by
    have : Std.Refl fun w w' : World ↦
      w'.handlingState = w.handlingState ∨ w'.handlingState = .stopped := ⟨fun _ ↦ .inl rfl⟩
    induction rounds with
    | zero => exact .pure false
    | succ rounds ih =>
      refine ((keepsHandling_superviseSessions _).mono fun _ _ h ↦ .inl h).bind fun count ↦ ?_
      refine (Prog.Within.read _).bind fun state ↦ .ite ?_ ih
      exact (Prog.Within.modify fun _ ↦ .inr rfl).bind fun _ ↦ .pure true
  exact hrun.zoom fun _ _ hw ↦ ⟨rfl, hw⟩

/-! ## The order to shut down -/

/-- The supervision thread has begun. -/
def Process.Begun (s : Process) : Prop := s.supervision = .supervising ∨ s.supervision = .finished

/-- No order to shut down has been lost, and no thread joined that was not created. -/
structure Process.Kept (s : Process) : Prop where
  /-- Once session handling has been closed it does not run. -/
  closed : s.closed = true → s.world.handlingState ≠ .running
  /-- The thread that was joined exists. -/
  joined : s.joined = true → s.supervision ≠ .absent

/-- What is maintained when signals wait for the supervision thread. -/
structure Process.Sound (s : Process) : Prop extends s.Kept where
  /-- Session handling is closed only after the supervision thread has begun. -/
  begun : s.closed = true → s.Begun

/-- What everybody guarantees. -/
structure Advances (s s' : Process) : Prop where
  /-- The process stays sound. -/
  sound : s.Sound → s'.Sound
  /-- The supervision thread does not go back. -/
  begun : s.Begun → s'.Begun
  /-- A thread that has been created stays. -/
  present : s.supervision ≠ .absent → s'.supervision ≠ .absent

instance : Std.Refl Advances := ⟨fun _ ↦ ⟨id, id, id⟩⟩

/-- Nothing happens before the supervision thread has been created. -/
def Awaits (s s' : Process) : Prop := s.supervision = .absent →
  s'.supervision = .absent ∧ s'.world.handlingState = s.world.handlingState

/-- What a party relies on. -/
def partyRely : Party → Process → Process → Prop
  | .main, s, s' => Awaits s s' ∧ (s.supervision ≠ .absent → s'.supervision ≠ .absent) ∧
      (s.Begun → s'.Begun)
  | _, s, s' => s.Begun → s'.Begun

/-- What a party guarantees. -/
def partyGuarantee : Party → Process → Process → Prop
  | .main, s, s' => Advances s s'
  | _, s, s' => Advances s s' ∧ Awaits s s'

instance (i : Party) : Std.Refl (partyRely i) := by
  cases i with
  | main => exact ⟨fun _ ↦ ⟨fun h ↦ ⟨h, rfl⟩, id, id⟩⟩
  | supervision => exact ⟨fun _ ↦ id⟩
  | signal n => exact ⟨fun _ ↦ id⟩

instance (i : Party) : IsTrans Process (partyRely i) := by
  cases i with
  | main =>
    refine ⟨fun s s' s'' h h' ↦ ⟨fun habsent ↦ ?_, h'.2.1 ∘ h.2.1, h'.2.2 ∘ h.2.2⟩⟩
    obtain ⟨habsent', hstate⟩ := h.1 habsent
    obtain ⟨habsent'', hstate'⟩ := h'.1 habsent'
    exact ⟨habsent'', hstate'.trans hstate⟩
  | supervision => exact ⟨fun _ _ _ h h' ↦ h' ∘ h⟩
  | signal n => exact ⟨fun _ _ _ h h' ↦ h' ∘ h⟩

instance (i : Party) : Std.Refl (partyGuarantee i) := by
  cases i with
  | main => exact ⟨fun s ↦ refl_of Advances s⟩
  | supervision => exact ⟨fun s ↦ ⟨refl_of Advances s, fun h ↦ ⟨h, rfl⟩⟩⟩
  | signal n => exact ⟨fun s ↦ ⟨refl_of Advances s, fun h ↦ ⟨h, rfl⟩⟩⟩

section Threads

variable {s s' : Process}

theorem Process.Begun.present (h : s.Begun) : s.supervision ≠ .absent := by
  rcases h with h | h <;> rw [h] <;> decide

theorem KeepsOrStops.advances (h : KeepsOrStops s s') : Advances s s' := by
  obtain ⟨hsame, hstate⟩ := h
  have hclosed : s'.closed = s.closed := by rw [hsame]
  have hsupervision : s'.supervision = s.supervision := by rw [hsame]
  have hjoined : s'.joined = s.joined := by rw [hsame]
  have hbegun : s.Begun → s'.Begun := by
    rw [Process.Begun, Process.Begun, hsupervision]
    exact id
  refine ⟨fun hs ↦ ⟨⟨fun hc ↦ ?_, fun hj ↦ ?_⟩, fun hc ↦ ?_⟩, hbegun, ?_⟩
  · rcases hstate with hstate | hstate <;> rw [hstate]
    · exact hs.closed (hclosed ▸ hc)
    · decide
  · rw [hsupervision]
    exact hs.joined (hjoined ▸ hj)
  · exact hbegun (hs.begun (hclosed ▸ hc))
  · rw [hsupervision]
    exact id

/-- An order to shut down that comes after the supervision thread has begun. -/
theorem advances_close (h : s.Begun) :
    Advances s { s.setHandlingState .terminating with closed := true } where
  sound := fun hs ↦ ⟨⟨fun _ ↦ nofun, hs.joined⟩, fun _ ↦ h⟩
  begun := id
  present := id

theorem triple_sighandler (i : Party) :
    Prog.Triple (partyRely i) (partyGuarantee i) Process.Begun sighandler fun _ _ ↦ True := by
  have hstable : Prog.Stable (partyRely i) Process.Begun := by
    intro s s' hR
    cases i with
    | main => exact hR.2.2
    | supervision => exact hR
    | signal n => exact hR
  have hguarantee : ∀ {s s' : Process}, s.Begun → Advances s s' → partyGuarantee i s s' := by
    intro s s' hbegun hs
    cases i with
    | main => exact hs
    | supervision => exact ⟨hs, fun h ↦ absurd h hbegun.present⟩
    | signal n => exact ⟨hs, fun h ↦ absurd h hbegun.present⟩
  refine (Prog.Triple.read_any _ hstable).bind fun ordered ↦
    .ite (fun _ ↦ .pure hstable fun _ _ ↦ trivial) fun _ ↦ ?_
  refine Prog.Triple.bind (M := fun _ ↦ Process.Begun) (.modify hstable hstable (fun s hs ↦ ?_)
    fun s hs ↦ hs) fun _ ↦ .modify hstable (Q := fun _ ↦ True) (fun _ _ _ h ↦ h) (fun s hs ↦ ?_)
      fun _ _ ↦ trivial
  · exact hguarantee hs ⟨fun h ↦ ⟨⟨h.closed, h.joined⟩, h.begun⟩, id, id⟩
  · exact hguarantee hs (advances_close hs)

theorem triple_supervisionThread :
    Prog.Triple (partyRely .supervision) (partyGuarantee .supervision) (fun _ ↦ True)
      supervisionThread fun _ _ ↦ True := by
  have hstable : Prog.Stable (partyRely .supervision) Process.Begun := fun _ _ hR ↦ hR
  refine Prog.Triple.bind (M := fun _ ↦ Process.Begun) (.await (fun _ _ _ h ↦ h) hstable
    (fun s _ hcreated ↦ ?_) fun s _ _ ↦ .inl rfl) fun _ ↦ ?_
  · -- Nothing has been closed, since the thread has not begun.
    have hcreated : s.supervision = .created := of_decide_eq_true hcreated
    have hbegun : ¬ s.Begun := by
      rintro (h | h) <;> rw [hcreated] at h <;> cases h
    refine ⟨⟨fun hs ↦ ⟨⟨fun hc ↦ absurd (hs.begun hc) hbegun, fun _ ↦ nofun⟩, fun _ ↦ .inl rfl⟩,
      fun _ ↦ .inl rfl, fun _ ↦ nofun⟩, fun h ↦ ?_⟩
    rw [hcreated] at h
    cases h
  refine (Prog.Triple.query hstable fun _ _ h ↦ h).bind fun rounds ↦ ?_
  refine Prog.Triple.bind (M := fun _ ↦ Process.Begun)
    (.frame (keepsOrStops_pcapsessionSupervisionRun _) hstable (fun _ _ h ↦ h.advances.begun)
      fun s s' h hbegun ↦ ⟨h.advances, fun habsent ↦ absurd habsent hbegun.present⟩)
    fun returned ↦ .ite (fun _ ↦ ?_) fun _ ↦ .pure hstable fun _ _ ↦ trivial
  refine .modify hstable (fun _ _ _ h ↦ h) (fun s hbegun ↦ ⟨?_, fun h ↦ ?_⟩) fun _ _ ↦ trivial
  · exact ⟨fun hs ↦ ⟨⟨hs.closed, fun _ ↦ nofun⟩, fun _ ↦ .inr rfl⟩, fun _ ↦ .inr rfl, fun _ ↦ nofun⟩
  · exact absurd h hbegun.present

/-- The main thread before the supervision thread has been created. -/
def Process.Initial (s : Process) : Prop :=
  s.supervision = .absent ∧ s.world.handlingState = .stopped

theorem triple_pcapsessionHandlingInit :
    Prog.Triple (partyRely .main) (partyGuarantee .main) Process.Initial pcapsessionHandlingInit
      fun started s ↦ started = true → s.supervision ≠ .absent := by
  have hinitial : Prog.Stable (partyRely .main) Process.Initial := fun s s' hR h ↦
    ⟨(hR.1 h.1).1, (hR.1 h.1).2.trans h.2⟩
  have habsent : Prog.Stable (partyRely .main) (·.supervision = .absent) := fun s s' hR h ↦
    (hR.1 h).1
  have hpresent : Prog.Stable (partyRely .main) (·.supervision ≠ .absent) :=
    fun s s' hR h ↦ hR.2.1 h
  -- While there is no supervision thread, nothing can have been closed or joined.
  have hsound : ∀ {s : Process}, s.supervision = .absent → s.Sound → s.closed = false ∧
      s.joined = false := by
    intro s h hs
    refine ⟨Bool.eq_false_iff.mpr fun hc ↦ (hs.begun hc).present h,
      Bool.eq_false_iff.mpr fun hj ↦ ?_⟩
    exact hs.joined hj h
  have hadvances : ∀ {s s' : Process}, s.supervision = .absent → s'.closed = s.closed →
      s'.joined = s.joined → Advances s s' := by
    intro s s' h hclosed hjoined
    refine ⟨fun hs ↦ ?_, fun hb ↦ absurd h hb.present, fun hp ↦ absurd h hp⟩
    obtain ⟨hc, hj⟩ := hsound h hs
    rw [← hclosed] at hc
    rw [← hjoined] at hj
    exact ⟨⟨by simp [hc], by simp [hj]⟩, by simp [hc]⟩
  refine .read_bind .stopped hinitial (fun s h ↦ h.2) (.ite (fun _ ↦ ?_) fun h ↦ absurd rfl h)
  refine Prog.Triple.bind (M := fun _ s ↦ s.supervision = .absent) (.modify hinitial habsent
    (fun s h ↦ hadvances h.1 (by rfl) (by rfl)) fun s h ↦ h.1) fun _ ↦ ?_
  refine (Prog.Triple.frame (keepsOrStops_inWorld (.modify fun _ ↦ by rfl)) habsent
    (fun s s' h habsent ↦ ?_) fun s s' h _ ↦ h.advances).bind fun _ ↦ ?_
  · rw [h.1]
    exact habsent
  refine (Prog.Triple.query habsent fun _ _ h ↦ h).bind fun created ↦ .ite (fun _ ↦ ?_) fun _ ↦ ?_
  · exact .pure habsent fun _ _ ↦ nofun
  refine Prog.Triple.bind (M := fun _ s ↦ s.supervision ≠ .absent) (.modify habsent hpresent
    (fun s h ↦ hadvances h (by rfl) (by rfl)) fun s _ ↦ nofun) fun _ ↦ ?_
  refine (Prog.Triple.await hpresent hpresent (fun s _ _ ↦ refl_of Advances s) fun s h _ ↦ h).bind
    fun _ ↦ .pure hpresent fun s h _ ↦ h

theorem triple_distributerMain (live : Bool) (iterations : ℤ) :
    Prog.Triple (partyRely .main) (partyGuarantee .main) Process.Initial
      (distributerMain live iterations) fun _ _ ↦ True := by
  have hinitial : Prog.Stable (partyRely .main) Process.Initial := fun s s' hR h ↦
    ⟨(hR.1 h.1).1, (hR.1 h.1).2.trans h.2⟩
  have hpresent : Prog.Stable (partyRely .main) (·.supervision ≠ .absent) :=
    fun s s' hR h ↦ hR.2.1 h
  have hopen : ∀ {α : Type} {p : SessionProg α}, p.Within KeepsHandling →
      Prog.Triple (partyRely .main) (partyGuarantee .main) (·.supervision ≠ .absent) (inWorld p)
        fun _ s ↦ s.supervision ≠ .absent := by
    intro α p hp
    refine .frame (keepsOrStops_inWorld hp) hpresent (fun s s' h hs ↦ ?_) fun s s' h _ ↦ h.advances
    exact h.advances.present hs
  have hcapture : (if live then pcapsessionLivecaptureOpen
      else pcapsessionFilecaptureOpen iterations).Within KeepsHandling :=
    .ite keepsHandling_pcapsessionLivecaptureOpen (keepsHandling_pcapsessionFilecaptureOpen _)
  refine Prog.Triple.bind (M := fun _ ↦ Process.Initial) (.modify hinitial hinitial
    (fun s h ↦ ?_) fun s h ↦ h) fun _ ↦ ?_
  · exact ⟨fun hs ↦ ⟨⟨hs.closed, hs.joined⟩, hs.begun⟩, id, id⟩
  refine (Prog.Triple.query hinitial fun _ _ h ↦ h).bind fun valid ↦
    .ite (fun _ ↦ .pure hinitial fun _ _ ↦ trivial) fun _ ↦ ?_
  refine triple_pcapsessionHandlingInit.bind fun started ↦ ?_
  cases started with
  | false => exact fun s _ _ _ ↦ trivial
  | true =>
    refine Prog.Triple.pre (A := (·.supervision ≠ .absent)) ?_ fun s h ↦ h rfl
    refine (hopen keepsHandling_pcapsessionServerOpen).bind fun server ↦
      .ite (fun _ ↦ .pure hpresent fun _ _ ↦ trivial) fun _ ↦ ?_
    refine (hopen hcapture).bind fun capture ↦
      .ite (fun _ ↦ .pure hpresent fun _ _ ↦ trivial) fun _ ↦ ?_
    have hbegun : ∀ s : Process, s.supervision ≠ .absent →
        decide (s.supervision = .absent ∨ s.supervision = .finished) = true → s.Begun := by
      intro s h hjoin
      rcases of_decide_eq_true hjoin with h' | h'
      · exact absurd h' h
      · exact .inr h'
    refine Prog.Triple.bind (M := fun _ ↦ Process.Begun) (.await hpresent (fun s s' hR ↦ hR.2.2)
      (fun s h hjoin ↦ ?_) fun s h hjoin ↦ hbegun s h hjoin) fun _ ↦ triple_sighandler .main
    exact ⟨fun hs ↦ ⟨⟨hs.closed, fun _ ↦ h⟩, hs.begun⟩, id, id⟩

end Threads

/-- **The order to shut down is kept** when signals are delivered only after the supervision thread
has begun: session handling does not become `RUNNING` again once it has been closed, and the main
thread joins no thread that was not created. -/
theorem shutdown_order_kept (live : Bool) (iterations : ℤ) (deliverable : Process → Bool)
    (hdeliverable : ∀ s, deliverable s = true → s.Begun) (pool : Party → ProcessProg Unit)
    (s : Process)
    (h : Prog.PoolReaches (parties deliverable live iterations) Process.init pool s) : s.Kept := by
  have hstart : ∀ i, (parties deliverable live iterations i).Sat (partyRely i) (partyGuarantee i)
      (fun _ _ ↦ True) Process.init := by
    intro i
    cases i with
    | main => exact triple_distributerMain live iterations _ ⟨rfl, rfl⟩
    | supervision => exact triple_supervisionThread _ trivial
    | signal n =>
      have htriple : Prog.Triple (partyRely (.signal n)) (partyGuarantee (.signal n)) (fun _ ↦ True)
          (terminationSignal deliverable) fun _ _ ↦ True := by
        refine Prog.Triple.bind (M := fun _ ↦ Process.Begun) (.await (fun _ _ _ h ↦ h)
          (fun _ _ hR ↦ hR) (fun s _ _ ↦ ?_) fun s _ hs ↦ hdeliverable s hs) fun _ ↦
          triple_sighandler (.signal n)
        exact refl_of (partyGuarantee (.signal n)) s
      exact htriple _ trivial
  have hcompat : ∀ i j, i ≠ j → ∀ s s', partyGuarantee i s s' → partyRely j s s' := by
    intro i j hij s s' hG
    have hadvances : Advances s s' := by
      cases i with
      | main => exact hG
      | supervision => exact hG.1
      | signal n => exact hG.1
    cases j with
    | main =>
      refine ⟨?_, hadvances.present, hadvances.begun⟩
      cases i with
      | main => exact absurd rfl hij
      | supervision => exact hG.2
      | signal n => exact hG.2
    | supervision => exact hadvances.begun
    | signal n => exact hadvances.begun
  have hsound : ∀ i s s', partyGuarantee i s s' → s.Sound → s'.Sound := by
    intro i s s' hG
    cases i with
    | main => exact hG.sound
    | supervision => exact hG.1.sound
    | signal n => exact hG.1.sound
  exact (Prog.PoolReaches.sat hcompat hsound hstart ⟨⟨nofun, nofun⟩, nofun⟩ h).2.toKept

/-- A signal is delivered while the supervision thread supervises. -/
theorem shutdown_order_kept_supervising :
    ∃ pool s, Prog.PoolReaches (parties (fun s ↦ s.supervision = .supervising) false 1)
      Process.init pool s ∧ s.closed = true ∧ s.Kept := by
  have hrun : ((Prog.runPool (parties (fun s ↦ s.supervision = .supervising) false 1) Process.init
      (List.replicate 7 (.main, 0) ++ [(.supervision, 0)] ++ List.replicate 4 (.signal 0, 0))).map
        fun x ↦ x.2.closed) = some true := by decide
  obtain ⟨⟨pool, s⟩, hsteps, hclosed⟩ := Option.map_eq_some_iff.mp hrun
  have hreaches := Prog.PoolReaches.of_runPool hsteps
  exact ⟨pool, s, hreaches, hclosed, shutdown_order_kept false 1 _
    (fun s h ↦ .inl (of_decide_eq_true h)) pool s hreaches⟩

/-- A signal that is delivered as soon as the handler is registered may be lost: when it comes
before the supervision thread has begun, session handling becomes `RUNNING` after it; when it comes
before session handling is initialised, the main thread joins a thread that does not exist. -/
theorem shutdown_order_lost :
    (∃ pool s, Prog.PoolReaches (parties (·.registered) false 1) Process.init pool s ∧
      s.closed = true ∧ s.world.handlingState = .running) ∧
    ∃ pool s, Prog.PoolReaches (parties (·.registered) false 1) Process.init pool s ∧
      s.joined = true ∧ s.supervision = .absent := by
  have hoverwritten : ((Prog.runPool (parties (·.registered) false 1) Process.init
      (List.replicate 7 (.main, 0) ++ List.replicate 4 (.signal 0, 0) ++ [(.supervision, 0)])).map
        fun x ↦ (x.2.closed, x.2.world.handlingState)) = some (true, .running) := by decide
  have hjoined : ((Prog.runPool (parties (·.registered) false 1) Process.init
      ([(.main, 0)] ++ List.replicate 4 (.signal 0, 0) ++ List.replicate 26 (.main, 3))).map
        fun x ↦ (x.2.joined, x.2.supervision)) = some (true, .absent) := by decide
  obtain ⟨⟨pool, s⟩, hsteps, hs⟩ := Option.map_eq_some_iff.mp hoverwritten
  obtain ⟨⟨pool', s'⟩, hsteps', hs'⟩ := Option.map_eq_some_iff.mp hjoined
  obtain ⟨hclosed, hstate⟩ := Prod.mk.inj hs
  obtain ⟨hj, habsent⟩ := Prod.mk.inj hs'
  exact ⟨⟨pool, s, .of_runPool hsteps, hclosed, hstate⟩,
    ⟨pool', s', .of_runPool hsteps', hj, habsent⟩⟩

end DistributorMerger
