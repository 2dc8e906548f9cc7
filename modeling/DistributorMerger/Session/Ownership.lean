import DistributorMerger.Session.Construction

/-!
# Who owns a slot under construction

The main thread and the server thread execute open functions while the supervisor makes visits, all
of them interrupted between any two statements. A slot belongs to the thread that has selected it
until that thread hands it to session handling or gives it back.

A slot has one owner, and the supervisor leaves it alone, in every run in which nobody acts on what
may be out of date: no thread reads the state of a slot that the other one is about to mark, and a
visit that finds a descriptor lost, or a session to abort, finds them in a session that is in use.
-/

namespace DistributorMerger

/-! ## Interleaved open functions and visits -/

/-- The threads that execute open functions. -/
inductive Caller
  /-- The main thread. -/
  | main
  /-- The thread of the server session. -/
  | server
deriving DecidableEq

/-- The thread that calls the function. -/
def Call.caller : Call → Caller
  | .opens _ => .main
  | .connects _ => .server

/-- The world, how far the open functions have come, the slot that the supervisor visits, and what
is left of the visit. -/
structure Construction where
  /-- The world. -/
  world : World
  /-- The threads that open sessions. -/
  opener : Caller → Opener
  /-- The slot that is visited. -/
  visited : Slot
  /-- The rest of the visit. -/
  visit : SessionProg Bool

/-- No open function is being executed, and no visit is being made. -/
def Construction.start (w : World) : Construction := ⟨w, fun _ ↦ .done none, 0, .ret false⟩

/-- What may happen next. -/
inductive Move
  /-- An open function is called. -/
  | calls (call : Call)
  /-- A thread executes a statement of its open function. -/
  | opens (b : Caller) (z : ℤ)
  /-- The supervisor begins to visit a slot. -/
  | visits (k : Slot)
  /-- The supervisor executes a statement of its visit. -/
  | supervises (z : ℤ)
  /-- Session handling is closed. -/
  | closes

namespace Opener

/-- No open function is being executed. -/
def idle : Opener → Bool
  | done _ => true
  | _ => false

/-- The slot whose state is read next by `pcapsession_handling_get_new`. -/
def reads : Opener → Option Slot
  | scans (i :: _) _ => some i
  | _ => none

/-- The slot that has been selected and not been marked `STOPPED` yet. -/
def clears : Opener → Option Slot
  | selects i _ _ => some i
  | _ => none

end Opener

/-- What is left of a visit when the descriptor has been looked at. -/
def afterCheck (k : Slot) : SessionProg Bool := do
  pcapsessionTransitionSession k
  tendSession k

/-- A session that is not stopped or aborting yet is ordered to abort. -/
def abortUnlessEnding (k : Slot) : SessionProg Unit := do
  if (← readSession k (·.state)) ≠ .stopped then
    if (← readSession k (·.state)) ≠ .aborting then
      pcapsessionChangeState k .abort

/-- What is left of a visit during shutdown that is about to look whether the session is to be
aborted. -/
def abortLook (k : Slot) : SessionProg Bool := do
  abortUnlessEnding k
  checkDescriptor k
  afterCheck k

/-- A session for whose descriptor `poll` has returned events is ordered to terminate. -/
def terminateUnlessOpen (k : Slot) (events fd : ℤ) : SessionProg Unit := do
  if !(← Prog.read fun w ↦ decide (w.seemsOpen events fd)) then
    pcapsessionChangeState k .terminate

/-- What is left of a visit in which `poll` has returned these events for `fd`. -/
def pollLook (k : Slot) (events fd : ℤ) : SessionProg Bool := do
  terminateUnlessOpen k events fd
  afterCheck k

namespace Construction

/-- Slot `i` is under construction by thread `b`. -/
def Owns (c : Construction) (b : Caller) (i : Slot) : Prop := (c.opener b).slot = some i

instance (c : Construction) (b : Caller) (i : Slot) : Decidable (c.Owns b i) := by
  unfold Owns
  infer_instance

/-- Slot `i` is under construction. -/
def Taken (c : Construction) (i : Slot) : Prop := c.Owns .main i ∨ c.Owns .server i

instance (c : Construction) (i : Slot) : Decidable (c.Taken i) := by
  unfold Taken
  infer_instance

/-- Slot `i` is in use, and not under construction. -/
def Settled (c : Construction) (i : Slot) : Prop :=
  ¬ c.Taken i ∧ (c.world.session i).state ≠ .unused

instance (c : Construction) (i : Slot) : Decidable (c.Settled i) := by
  unfold Settled
  infer_instance

/-- The next configuration, if the move can be made. -/
def step (c : Construction) : Move → Option Construction
  | .calls call =>
    if (c.opener call.caller).idle then
      some { c with opener := Function.update c.opener call.caller
                                (Opener.begun call.filling.1 call.prologue) }
    else none
  | .opens b z => ((c.opener b).next z c.world).map fun x ↦
      { c with world := x.2, opener := Function.update c.opener b x.1 }
  | .visits k =>
    if c.visit.returned then some { c with visited := k, visit := superviseSession k } else none
  | .supervises z => (c.visit.next z c.world).map fun x ↦ { c with world := x.2, visit := x.1 }
  | .closes => some { c with world := { c.world with handlingState := .terminating } }

/-- The configuration after some moves. -/
def run (c : Construction) (ms : List Move) : Option Construction := ms.foldlM step c

/-- The rest `p` of a visit of slot `k` does not act on what may be out of date. A look that may
lead to `ABORT` does not find the slot `UNUSED`; a descriptor found lost is that of a session in
use. -/
def ClearVisit (k : Slot) (p : SessionProg Bool) (c : Construction) : Prop :=
  (p = abortLook k → (c.world.session k).state ≠ .unused) ∧
    ∀ events fd, p = pollLook k events fd → c.world.seemsOpen events fd ∨ c.Settled k

/-- Nobody acts on what may be out of date. -/
def Clear (c : Construction) : Move → Prop
  | .opens b _ => ∀ b' i, b' ≠ b → (c.opener b).reads = some i → (c.opener b').clears ≠ some i
  | .supervises _ => ClearVisit c.visited c.visit c
  | .calls _ | .visits _ | .closes => True

/-- A slot under construction has one owner after the move, and the supervisor does not touch a slot
under construction. -/
def OneOwner (c : Construction) (m : Move) (c' : Construction) : Prop :=
  (∀ i b b', c'.Owns b i → c'.Owns b' i → b = b') ∧
    ∀ z, m = .supervises z → ∀ i, c.Taken i → c'.world.session i = c.world.session i

/-! ## The rely and the guarantee of a visit -/

/-- The world, as the part of the configuration that statements act on. -/
def part : Part Construction World := ⟨world, fun c w ↦ { c with world := w }, fun _ ↦ rfl⟩

/-- A slot under construction is not marked, or is marked `STOPPED`. -/
def Marked (c : Construction) : Prop :=
  ∀ i, c.Taken i → (c.world.session i).state = .unused ∨ (c.world.session i).state = .stopped

/-- What a visit of slot `k` relies on: open functions do not touch a session in use, and mark the
slots that they construct. -/
structure Rely (k : Slot) (c c' : Construction) : Prop where
  /-- The slot that is visited. -/
  settled : c.Settled k → c'.Settled k
  /-- The slots under construction. -/
  marked : c'.Marked

/-- What a visit guarantees: slots under construction are not touched. -/
def Spares (c c' : Construction) : Prop :=
  ∀ i, c.Taken i → c'.world.session i = c.world.session i

/-- A statement touches no slot but `k`, and does not give it back. -/
structure Works (k : Slot) (w w' : World) : Prop where
  /-- The other slots. -/
  others : OnlyAt k w w'
  /-- The state. -/
  used : (w.session k).state ≠ .unused → (w'.session k).state ≠ .unused

section Visits

variable {k : Slot} {c : Construction}

instance : IsTrans Construction (Rely k) :=
  ⟨fun _ _ _ h h' ↦ ⟨fun hc ↦ h'.settled (h.settled hc), h'.marked⟩⟩

instance : Prog.Settles (Rely k) := ⟨fun h ↦ ⟨id, h.marked⟩⟩

instance : Std.Refl (Works k) := ⟨fun w ↦ ⟨refl_of (OnlyAt k) w, id⟩⟩

theorem works_of_writes {α : Type} {p : SessionProg α}
    (h : p.Within (VisitWrites (· ≠ .unused) k)) : p.Within (Works k) := by
  refine h.mono fun w w' hw ↦ ⟨fun j hj ↦ hw.others hj, fun hused ↦ ?_⟩
  rcases hw.state_cases with heq | hne
  · rwa [heq]
  · exact hne

theorem works_modifySession {f : Session → Session} (hf : ∀ s, (f s).state = s.state) :
    (modifySession k f).Within (Works k) := by
  refine .modify fun w ↦ ⟨fun _ hj ↦ World.session_modifySession_of_ne w hj f, fun hused ↦ ?_⟩
  rwa [World.session_modifySession_self, hf]

theorem stable_settled : Prog.Stable (Rely k) (·.Settled k) := fun _ _ h ↦ h.settled

/-- What a statement does to a session in use does not concern the slots under construction. -/
theorem Settled.spares (h : c.Settled k) {w : World} (hw : OnlyAt k c.world w) :
    Spares c (part.set c w) := by
  intro i hi
  refine hw i ?_
  rintro rfl
  exact h.1 hi

theorem Marked.settled (h : c.Marked) (hunused : (c.world.session k).state ≠ .unused)
    (hstopped : (c.world.session k).state ≠ .stopped) : c.Settled k := by
  refine ⟨fun htaken ↦ ?_, hunused⟩
  rcases h k htaken with heq | heq
  · exact hunused heq
  · exact hstopped heq

variable {α : Type} {C : SessionProg α → Construction → Prop}

theorem triple_works {p : SessionProg α} (h : p.Within (Works k)) :
    p.TripleIf part C (Rely k) Spares (·.Settled k) fun _ c ↦ c.Settled k := by
  refine .frame h stable_settled fun c w hc hw ↦ ⟨⟨hc.1, hw.used hc.2⟩, hc.spares hw.others⟩

theorem triple_modifySession {C : SessionProg Unit → Construction → Prop} (f : Session → Session) :
    (modifySession k f).TripleIf part C (Rely k) Spares (·.Settled k) fun _ _ ↦ True :=
  .modify stable_settled
    (fun c hc ↦ hc.spares fun _ hj ↦ World.session_modifySession_of_ne c.world hj f) fun _ ↦ trivial

theorem triple_return (a : α) {P : Construction → Prop} (hP : Prog.Stable (Rely k) P) :
    (pure a : SessionProg α).TripleIf part C (Rely k) Spares P fun _ _ ↦ True :=
  .pure hP fun _ _ ↦ trivial

theorem stable_settled_of (p : Prop) : Prog.Stable (Rely k) fun c ↦ p → c.Settled k :=
  fun _ _ h hc hp ↦ h.settled (hc hp)

theorem triple_read (g : World → α) :
    (Prog.read g : SessionProg α).TripleIf part C (Rely k) Spares (fun _ ↦ True) fun _ _ ↦ True :=
  .read Prog.stable_true (fun _ ↦ Prog.stable_true) (fun _ _ _ ↦ rfl) fun _ _ _ _ ↦ trivial

/-- A look at the state tells whether the session is in use. -/
theorem triple_readState {C : SessionProg SessionState → Construction → Prop} :
    (readSession k (·.state)).TripleIf part C (Rely k) Spares (fun _ ↦ True) fun state c ↦
      state ≠ .unused ∧ state ≠ .stopped → c.Settled k :=
  .read Prog.stable_true (fun _ ↦ stable_settled_of _) (fun _ _ _ ↦ rfl)
    fun _ hrely _ _ hstate ↦ hrely.marked.settled hstate.1 hstate.2

theorem triple_abortUnlessEnding {C : SessionProg Unit → Construction → Prop}
    (hC : ∀ c, C (abortUnlessEnding k) c → (c.world.session k).state ≠ .unused) :
    (abortUnlessEnding k).TripleIf part C (Rely k) Spares (fun _ ↦ True) fun _ _ ↦ True := by
  refine .bind (M := fun state c ↦ state ≠ .stopped → c.Settled k) ?_ fun state ↦
    .ite (fun hstopped ↦ ?_) fun _ ↦ triple_return () (stable_settled_of _)
  · refine .read Prog.stable_true (fun _ ↦ stable_settled_of _) (fun _ _ _ ↦ rfl) ?_
    -- `STOPPED` is what the look excludes, `UNUSED` what the condition excludes.
    exact fun c hrely _ hc hstate ↦ hrely.marked.settled (hC c hc) hstate
  · refine .weaken (A := (·.Settled k)) ?_ (fun _ hc ↦ hc hstopped) fun _ _ h ↦ h
    refine .bind (triple_works (.read _)) fun _ ↦ ?_
    exact .ite (fun _ ↦ triple_modifySession _) fun _ ↦ triple_return () stable_settled

theorem triple_orderAbort {C : SessionProg Unit → Construction → Prop}
    (hC : ∀ c, C (abortUnlessEnding k) c → (c.world.session k).state ≠ .unused) :
    (orderAbort k).TripleIf part C (Rely k) Spares (fun _ ↦ True) fun _ _ ↦ True :=
  .bind (triple_read _) fun _ ↦ .ite (fun _ ↦ triple_abortUnlessEnding hC) fun _ ↦
    triple_return () Prog.stable_true

theorem triple_terminateUnlessOpen {C : SessionProg Unit → Construction → Prop} {events fd : ℤ}
    (hC : ∀ c, C (terminateUnlessOpen k events fd) c →
      c.world.seemsOpen events fd ∨ c.Settled k) :
    (terminateUnlessOpen k events fd).TripleIf part C (Rely k) Spares (fun _ ↦ True)
      fun _ _ ↦ True := by
  refine .bind (M := fun seemsOpen c ↦ seemsOpen = false → c.Settled k) ?_ fun seemsOpen ↦
    .ite (fun hlost ↦ ?_) fun _ ↦ triple_return () (stable_settled_of _)
  · refine .read Prog.stable_true (fun _ ↦ stable_settled_of _) (fun _ _ _ ↦ rfl) ?_
    intro c _ _ hc hlost
    exact (hC c hc).resolve_left (of_decide_eq_false hlost)
  · refine .weaken (triple_modifySession _) (fun _ hc ↦ hc ?_) fun _ _ h ↦ h
    rwa [Bool.not_eq_true'] at hlost

theorem triple_checkDescriptor {C : SessionProg Unit → Construction → Prop}
    (hC : ∀ events fd c, C (terminateUnlessOpen k events fd) c →
      c.world.seemsOpen events fd ∨ c.Settled k) :
    (checkDescriptor k).TripleIf part C (Rely k) Spares (fun _ ↦ True) fun _ _ ↦ True := by
  refine .bind (triple_read _) fun _ ↦ .ite (fun _ ↦ ?_) fun _ ↦ triple_return () Prog.stable_true
  refine .bind (triple_read _) fun _ ↦ .ite (fun _ ↦ ?_) fun _ ↦ triple_return () Prog.stable_true
  refine .bind (triple_read _) fun fd ↦ ?_
  exact fun c _ events ↦ triple_terminateUnlessOpen (hC events fd) c trivial

theorem works_changeState {newState : SessionState} (h : newState ≠ .unused) :
    (pcapsessionChangeState k newState).Within (Works k) := works_of_writes (writes_changeState h)

theorem works_rest {f : World → World}
    (hf : ∀ w, (f w).session = w.session ∧ (f w).handlingState = w.handlingState ∧
      (f w).mergeMutex = w.mergeMutex ∧ (f w).written = w.written) :
    (Prog.modify f : SessionProg Unit).Within (Works k) := works_of_writes (writes_rest hf)

/-- A stop gives the slot back with its last statement. -/
theorem triple_stopAndRelease {C : SessionProg Unit → Construction → Prop} :
    (stopAndRelease k).TripleIf part C (Rely k) Spares (·.Settled k) fun _ _ ↦ True := by
  have hrelease : ∀ {C : SessionProg Unit → Construction → Prop}, (do
      if (← readSession k (·.state)) = .stopped then
        pcapsessionChangeState k .unused : SessionProg Unit).TripleIf part C (Rely k) Spares
        (·.Settled k) fun _ _ ↦ True := fun {C} ↦
    .bind (triple_works (.read _)) fun _ ↦ .ite (fun _ ↦ triple_modifySession _) fun _ ↦
      triple_return () stable_settled
  refine .bind (triple_works (.read _)) fun m ↦ ?_
  cases m with
  | none => exact .bind .stuck fun _ ↦ hrelease
  | some m =>
    refine .bind (triple_works (works_of_writes ?_)) fun _ ↦ hrelease
    exact writes_stopper (by decide) (by decide) m

theorem triple_pcapsessionStop {C : SessionProg Unit → Construction → Prop} :
    (pcapsessionStop k).TripleIf part C (Rely k) Spares (·.Settled k) fun _ _ ↦ True := by
  refine .bind (triple_works (.read _)) fun thread ↦
    .ite (fun _ ↦ ?_) fun _ ↦ triple_stopAndRelease
  refine .bind (triple_works (works_rest fun _ ↦ ⟨rfl, rfl, rfl, rfl⟩)) fun _ ↦
    .bind (triple_works (works_rest fun _ ↦ ⟨rfl, rfl, rfl, rfl⟩)) fun _ ↦ ?_
  exact .bind (triple_works (works_modifySession fun _ ↦ rfl)) fun _ ↦ triple_stopAndRelease

theorem triple_countInterval {C : SessionProg Unit → Construction → Prop}
    {timedOut : SessionProg Unit}
    (h : ∀ {C : SessionProg Unit → Construction → Prop},
      timedOut.TripleIf part C (Rely k) Spares (·.Settled k) fun _ _ ↦ True) :
    (countInterval k timedOut).TripleIf part C (Rely k) Spares (·.Settled k) fun _ _ ↦ True :=
  .bind (triple_works (.read _)) fun _ ↦ .ite (fun _ ↦ h) fun _ ↦ triple_modifySession _

theorem triple_orderStop {C : SessionProg Unit → Construction → Prop} {newState : SessionState}
    (h : newState ≠ .unused) :
    (orderStop k newState).TripleIf part C (Rely k) Spares (·.Settled k) fun _ _ ↦ True :=
  .bind (triple_works (works_changeState h)) fun _ ↦
    .bind (triple_works (works_modifySession fun _ ↦ rfl)) fun _ ↦ triple_pcapsessionStop

theorem triple_transitionFrom {C : SessionProg Unit → Construction → Prop} (state : SessionState) :
    (transitionFrom k state).TripleIf part C (Rely k) Spares
      (fun c ↦ state ≠ .unused ∧ state ≠ .stopped → c.Settled k) fun _ _ ↦ True := by
  have hused : ∀ {p : SessionProg Unit}, state ≠ .unused ∧ state ≠ .stopped →
      p.TripleIf part C (Rely k) Spares (·.Settled k) (fun _ _ ↦ True) →
      p.TripleIf part C (Rely k) Spares
        (fun c ↦ state ≠ .unused ∧ state ≠ .stopped → c.Settled k) fun _ _ ↦ True :=
    fun hstate hp ↦ hp.weaken (fun _ hc ↦ hc hstate) fun _ _ h ↦ h
  have htimeout : (countInterval k do
      pcapsessionChangeState k .stopped
      pcapsessionStop k).TripleIf part C (Rely k) Spares (·.Settled k) fun _ _ ↦ True :=
    triple_countInterval (.bind (triple_works (works_changeState nofun)) fun _ ↦
      triple_pcapsessionStop)
  cases state with
  | unused => exact triple_return () (stable_settled_of _)
  | stopped => exact triple_return () (stable_settled_of _)
  | running => exact triple_return () (stable_settled_of _)
  | start =>
    refine hused ⟨nofun, nofun⟩ (.bind (triple_works (works_changeState nofun)) fun _ ↦ ?_)
    refine .bind (triple_works (works_modifySession fun _ ↦ rfl)) fun _ ↦ ?_
    exact .bind (triple_works (works_of_writes writes_pcapsessionStart)) fun _ ↦
      triple_return () stable_settled
  | starting =>
    exact hused ⟨nofun, nofun⟩ (triple_countInterval (triple_modifySession _))
  | terminate => exact hused ⟨nofun, nofun⟩ (triple_orderStop nofun)
  | abort => exact hused ⟨nofun, nofun⟩ (triple_orderStop nofun)
  | terminating => exact hused ⟨nofun, nofun⟩ htimeout
  | aborting => exact hused ⟨nofun, nofun⟩ htimeout

theorem works_flushIdleDumper : (flushIdleDumper k).Within (Works k) := by
  refine (Prog.Within.read _).bind fun monitor ↦ ?_
  cases monitor with
  | none => exact .pure ()
  | some monitor =>
    refine (Prog.Within.read _).bind fun dumper ↦ .ite ?_ (.pure ())
    refine (Prog.Within.read _).bind fun bytes ↦ .ite ?_ (.pure ())
    refine Prog.Within.bind (.await fun w _ ↦ ⟨fun _ hj ↦ ?_, fun hused ↦ ?_⟩) fun _ ↦
      works_modifySession fun _ ↦ rfl
    · exact World.session_modifySession_of_ne w hj _
    · rwa [World.session_modifySession_self]

theorem triple_tendSession {C : SessionProg Bool → Construction → Prop} :
    (tendSession k).TripleIf part C (Rely k) Spares (fun _ ↦ True) fun _ _ ↦ True := by
  refine .bind triple_readState fun state ↦ .ite (fun hrunning ↦ ?_) fun _ ↦
    triple_return true (stable_settled_of _)
  refine .weaken (A := (·.Settled k)) ?_ (fun _ hc ↦ hc ?_) fun _ _ h ↦ h
  · exact .bind (triple_works works_flushIdleDumper) fun _ ↦
      .bind (triple_works (works_of_writes writes_superviseMonitor)) fun _ ↦
        triple_return true stable_settled
  · subst hrunning
    exact ⟨nofun, nofun⟩

/-- **What a visit does to slots under construction**: nothing, as long as it does not act on what
may be out of date. -/
theorem triple_superviseSession (k : Slot) :
    (superviseSession k).TripleIf part (ClearVisit k) (Rely k) Spares (fun _ ↦ True)
      fun _ _ ↦ True := by
  -- The first look says nothing that lasts: a slot under construction is not `UNUSED` either.
  refine .bind (triple_read _) fun state ↦
    .ite (fun _ ↦ triple_return false Prog.stable_true) fun _ ↦ ?_
  refine .bind (triple_orderAbort fun c hc ↦ hc.1 rfl) fun _ ↦ ?_
  refine .bind (triple_checkDescriptor fun events fd c hc ↦ hc.2 events fd rfl) fun _ ↦ ?_
  rw [pcapsessionTransitionSession_eq]
  refine .bind (.bind triple_readState triple_transitionFrom) fun _ ↦ triple_tendSession

end Visits

end Construction

/-! ## Open functions -/

namespace Opener

/-- What is true of a thread that executes an open function. The slot that it constructs is `UNUSED`
until it is marked, and `STOPPED` from then on. -/
def Sound (w : World) : Opener → Prop
  | begins p _ => p.Within fun w w' ↦ w'.session = w.session
  | selects i assignments _ => assignments <:+ clearing i ∧ (w.session i).state = .unused
  | fills i p => (w.session i).state = .stopped ∧ p.Within (OnlyAt i) ∧
      p.ChangesLast (fun w ↦ (w.session i).state) false
  | hands i => (w.session i).state = .stopped
  | done _ | scans _ _ | adds _ => True

/-- What the next statement of an open function leads to. -/
structure Advances (o : Opener) (w : World) (o' : Opener) (w' : World) : Prop where
  /-- The rest of the open function. -/
  sound : o'.Sound w'
  /-- The states of other slots are left alone. -/
  state : ∀ j, o.slot ≠ some j → (w'.session j).state = (w.session j).state
  /-- A slot is selected when it has been read and found `UNUSED`. -/
  slot : ∀ i, o'.slot = some i →
    o.slot = some i ∨ o.reads = some i ∧ (w.session i).state = .unused

variable {o o' : Opener} {w w' : World} {i : Slot} {f : Filler} {z : ℤ}

theorem Sound.congr (h : o.Sound w)
    (hstate : ∀ i, o.slot = some i → (w'.session i).state = (w.session i).state) :
    o.Sound w' := by
  cases o with
  | done => trivial
  | begins => exact h
  | scans => trivial
  | selects i => exact ⟨h.1, (hstate i rfl).trans h.2⟩
  | fills i => exact ⟨(hstate i rfl).trans h.1, h.2⟩
  | hands i => exact (hstate i rfl).trans h
  | adds => trivial

theorem Sound.state (h : o.Sound w) (hi : o.slot = some i) :
    o.clears = some i ∧ (w.session i).state = .unused ∨ (w.session i).state = .stopped := by
  cases o with
  | done => cases hi
  | begins => cases hi
  | scans => cases hi
  | selects =>
    cases hi
    exact .inl ⟨rfl, h.2⟩
  | fills =>
    cases hi
    exact .inr h.1
  | hands =>
    cases hi
    exact .inr h
  | adds => cases hi

theorem sound_begun {p : SessionProg Unit} (h : p.Within fun w w' ↦ w'.session = w.session) :
    (begun f p).Sound w := by
  cases p with
  | ret _ => trivial
  | act => exact h
  | ask => exact h

theorem slot_begun (p : SessionProg Unit) : (begun f p).slot = none := by
  cases p <;> rfl

theorem sound_filled {p : SessionProg Bool}
    (hstate : (w.session i).state = .stopped ∨ p = .ret false) (hown : p.Within (OnlyAt i))
    (hgives : p.ChangesLast (fun w ↦ (w.session i).state) false) : (filled i p).Sound w := by
  rcases hstate with hstate | rfl
  · cases p with
    | ret b =>
      cases b with
      | false => trivial
      | true => exact hstate
    | act => exact ⟨hstate, hown, hgives⟩
    | ask => exact ⟨hstate, hown, hgives⟩
  · trivial

theorem slot_filled {p : SessionProg Bool} {j : Slot} (h : (filled i p).slot = some j) : i = j := by
  cases p with
  | ret b =>
    cases b with
    | false => cases h
    | true => exact Option.some.inj h
  | act => exact Option.some.inj h
  | ask => exact Option.some.inj h

theorem slot_selected {assignments : List (Session → Session)} {j : Slot}
    (h : (selected i f assignments).slot = some j) : i = j := by
  cases assignments with
  | nil => exact slot_filled h
  | cons => exact Option.some.inj h

/-- The last assignment marks the slot, and the others leave it `UNUSED`. -/
theorem sound_selected {g : Session → Session} {assignments : List (Session → Session)}
    (hsuffix : g :: assignments <:+ clearing i) (hstate : (w.session i).state = .unused) :
    (selected i f assignments).Sound (w.modifySession i g) := by
  have hrest : assignments <:+ clearing i := (List.suffix_cons g assignments).trans hsuffix
  have hstate' := w.session_modifySession_self i g
  simp only [clearing, List.suffix_cons_iff, List.cons.injEq, List.suffix_nil, reduceCtorEq,
    or_false] at hsuffix
  obtain ⟨rfl, rfl⟩ | ⟨rfl, rfl⟩ | ⟨rfl, rfl⟩ | ⟨rfl, rfl⟩ := hsuffix
  · exact ⟨hrest, by rw [hstate']; rfl⟩
  · exact ⟨hrest, by rw [hstate']; exact hstate⟩
  · exact ⟨hrest, by rw [hstate']; exact hstate⟩
  · exact sound_filled (.inl (by rw [hstate'])) (f.own i) (f.gives i)

theorem state_modifySession_of_slot (w : World) (g : Session → Session) {j : Slot}
    (h : some i ≠ some j) : ((w.modifySession i g).session j).state = (w.session j).state := by
  rw [World.session_modifySession_of_ne _ fun hj ↦ h (congrArg some hj.symm)]

/-- **The next statement of an open function.** -/
theorem Sound.advances (h : o.Sound w) (hnext : o.next z w = some (o', w')) :
    o.Advances w o' w' := by
  cases o with
  | done => cases hnext
  | begins p f =>
    obtain ⟨⟨p', w₁⟩, hp, heq⟩ := Option.map_eq_some_iff.mp hnext
    cases heq
    have : Std.Refl fun w w' : World ↦ w'.session = w.session := ⟨fun _ ↦ rfl⟩
    obtain ⟨hsession, hrest⟩ := Prog.Within.next h hp
    refine ⟨sound_begun hrest, fun j _ ↦ congrArg (fun s ↦ (s j).state) hsession, fun i hi ↦ ?_⟩
    rw [slot_begun] at hi
    cases hi
  | scans slots f =>
    cases slots with
    | nil => cases hnext
    | cons i slots =>
      obtain ⟨rfl, rfl⟩ := Prod.mk.inj (Option.some.inj hnext)
      by_cases hunused : (w.session i).state = .unused
      · rw [if_pos hunused]
        refine ⟨⟨List.suffix_rfl, hunused⟩, fun _ _ ↦ rfl, fun j hj ↦ .inr ?_⟩
        cases hj
        exact ⟨rfl, hunused⟩
      · rw [if_neg hunused]
        cases slots with
        | nil => exact ⟨trivial, fun _ _ ↦ rfl, nofun⟩
        | cons => exact ⟨trivial, fun _ _ ↦ rfl, nofun⟩
  | selects i assignments f =>
    cases assignments with
    | nil => cases hnext
    | cons g assignments =>
      cases hnext
      refine ⟨sound_selected h.1 h.2, fun j hj ↦ state_modifySession_of_slot w g hj, fun j hj ↦ ?_⟩
      exact .inl (congrArg some (slot_selected hj))
  | fills i p =>
    obtain ⟨⟨p', w₁⟩, hp, heq⟩ := Option.map_eq_some_iff.mp hnext
    cases heq
    obtain ⟨hstate, hown, hgives⟩ := h
    obtain ⟨hothers, hown⟩ := hown.next hp
    -- The slot stays `STOPPED`, unless this was the last statement and the slot is given back.
    obtain ⟨hlast, hgives⟩ := hgives.next hp
    refine ⟨sound_filled (hlast.imp (·.trans hstate) id) hown hgives, fun j hj ↦ ?_, fun j hj ↦ ?_⟩
    · rw [hothers j fun hji ↦ hj (congrArg some hji.symm)]
    · exact .inl (congrArg some (slot_filled hj))
  | hands i =>
    cases hnext
    exact ⟨trivial, fun j hj ↦ state_modifySession_of_slot w _ hj, nofun⟩
  | adds i =>
    cases hnext
    refine ⟨trivial, fun j _ ↦ ?_, nofun⟩
    by_cases hj : j = i
    · rw [hj, World.session_modifySession_self]
    · rw [World.session_modifySession_of_ne _ hj]

end Opener

theorem Call.within_prologue (call : Call) :
    call.prologue.Within fun w w' ↦ w'.session = w.session := by
  cases call with
  | opens call => exact .pure ()
  | connects fd =>
    have : Std.Refl fun w w' : World ↦ w'.session = w.session := ⟨fun _ ↦ rfl⟩
    refine (Prog.Within.read _).bind fun initialized ↦ .ite ?_ (.pure ())
    exact Prog.Within.bind (.modify fun _ ↦ rfl) fun _ ↦ .modify fun _ ↦ rfl

/-! ## Runs -/

namespace Construction

/-- What is true in every configuration of a run in which nobody acts on what may be out of date. -/
structure Sound (c : Construction) : Prop where
  /-- A slot has one owner. -/
  alone : ∀ i b b', c.Owns b i → c.Owns b' i → b = b'
  /-- The open functions. -/
  opener : ∀ b, (c.opener b).Sound c.world
  /-- The visit. -/
  visit : c.visit.SatIf part (ClearVisit c.visited) (Rely c.visited) Spares (fun _ _ ↦ True) c

variable {c c' : Construction}

theorem taken_iff {i : Slot} : c.Taken i ↔ ∃ b, c.Owns b i := by
  constructor
  · rintro (h | h)
    · exact ⟨_, h⟩
    · exact ⟨_, h⟩
  · rintro ⟨b, h⟩
    cases b with
    | main => exact .inl h
    | server => exact .inr h

theorem marked_of_opener (h : ∀ b, (c.opener b).Sound c.world) : c.Marked := by
  intro i hi
  obtain ⟨b, hb⟩ := taken_iff.mp hi
  exact ((h b).state hb).imp And.right id

/-- A slot that a thread has read and found `UNUSED` is not under construction by the other one. -/
theorem Sound.not_owns (h : c.Sound) {b b' : Caller} {i : Slot} {z : ℤ}
    (hclear : c.Clear (.opens b z)) (hb' : b' ≠ b) (hreads : (c.opener b).reads = some i)
    (hunused : (c.world.session i).state = .unused) : ¬ c.Owns b' i := by
  intro howns
  rcases (h.opener b').state howns with ⟨hclears, -⟩ | hstopped
  · exact hclear b' i hb' hreads hclears
  · rw [hunused] at hstopped
    cases hstopped

theorem Sound.start (w : World) : (start w).Sound := by
  refine ⟨nofun, fun _ ↦ trivial, ?_⟩
  exact fun _ _ ↦ trivial

/-- What the open functions do to one slot does not disturb the visit. -/
theorem Sound.visit_of_rely (h : c.Sound) (hopener : ∀ b, (c'.opener b).Sound c'.world)
    (hsettled : c.Settled c.visited → c'.Settled c.visited) :
    c.visit.SatIf part (ClearVisit c.visited) (Rely c.visited) Spares (fun _ _ ↦ True) c' :=
  h.visit.rely ⟨hsettled, marked_of_opener hopener⟩

theorem Sound.calls (h : c.Sound) {call : Call} (hidle : (c.opener call.caller).idle = true) :
    Sound { c with opener := Function.update c.opener call.caller
                               (Opener.begun call.filling.1 call.prologue) } := by
  have hslot : ∀ b, (Function.update c.opener call.caller
      (Opener.begun call.filling.1 call.prologue) b).slot = (c.opener b).slot := by
    intro b
    by_cases hb : b = call.caller
    · subst hb
      rw [Function.update_self, Opener.slot_begun]
      cases hdone : c.opener call.caller with
      | done => rfl
      | _ => rw [hdone] at hidle; cases hidle
    · rw [Function.update_of_ne hb]
  have hopener : ∀ b, (Function.update c.opener call.caller
      (Opener.begun call.filling.1 call.prologue) b).Sound c.world := by
    intro b
    by_cases hb : b = call.caller
    · subst hb
      rw [Function.update_self]
      exact Opener.sound_begun call.within_prologue
    · rw [Function.update_of_ne hb]
      exact h.opener b
  refine ⟨fun i b b' hb hb' ↦ h.alone i b b' ((hslot b).symm.trans hb) ((hslot b').symm.trans hb'),
    hopener, h.visit_of_rely hopener ?_⟩
  rintro ⟨htaken, hstate⟩
  refine ⟨fun htaken' ↦ htaken ?_, hstate⟩
  obtain ⟨b, hb⟩ := taken_iff.mp htaken'
  exact taken_iff.mpr ⟨b, (hslot b).symm.trans hb⟩

theorem owns_update_self {b : Caller} {o : Opener} {w : World} {i : Slot} :
    Owns { c with world := w, opener := Function.update c.opener b o } b i ↔ o.slot = some i := by
  unfold Owns
  dsimp only
  rw [Function.update_self]

theorem owns_update_of_ne {b b' : Caller} {o : Opener} {w : World} {i : Slot} (h : b' ≠ b) :
    Owns { c with world := w, opener := Function.update c.opener b o } b' i ↔ c.Owns b' i := by
  unfold Owns
  dsimp only
  rw [Function.update_of_ne h]

theorem Sound.opens (h : c.Sound) {b : Caller} {z : ℤ} {o : Opener} {w : World}
    (hclear : c.Clear (.opens b z)) (hnext : (c.opener b).next z c.world = some (o, w)) :
    Sound { c with world := w, opener := Function.update c.opener b o } := by
  have hadvances := (h.opener b).advances hnext
  -- A slot that the thread has now is not the other's.
  have hfree : ∀ {b' i}, b' ≠ b → c.Owns b' i → o.slot ≠ some i := by
    intro b' i hb' howns hi
    rcases hadvances.slot i hi with hbefore | ⟨hreads, hunused⟩
    · exact hb' (h.alone i b' b howns hbefore)
    · exact h.not_owns hclear hb' hreads hunused howns
  have hopener : ∀ b', (Function.update c.opener b o b').Sound w := by
    intro b'
    by_cases hb' : b' = b
    · subst hb'
      rw [Function.update_self]
      exact hadvances.sound
    · rw [Function.update_of_ne hb']
      exact (h.opener b').congr fun i hi ↦ hadvances.state i fun hbi ↦ hb' (h.alone i b' b hi hbi)
  refine ⟨fun i b₁ b₂ h₁ h₂ ↦ ?_, hopener, h.visit_of_rely hopener ?_⟩
  · by_cases hb₁ : b₁ = b
    · by_cases hb₂ : b₂ = b
      · exact hb₁.trans hb₂.symm
      · rw [hb₁, owns_update_self] at h₁
        rw [owns_update_of_ne hb₂] at h₂
        exact absurd h₁ (hfree hb₂ h₂)
    · rw [owns_update_of_ne hb₁] at h₁
      by_cases hb₂ : b₂ = b
      · rw [hb₂, owns_update_self] at h₂
        exact absurd h₂ (hfree hb₁ h₁)
      · rw [owns_update_of_ne hb₂] at h₂
        exact h.alone i b₁ b₂ h₁ h₂
  · rintro ⟨htaken, hused⟩
    have hnot : ∀ b', ¬ c.Owns b' c.visited := fun b' hb' ↦ htaken (taken_iff.mpr ⟨b', hb'⟩)
    refine ⟨fun htaken' ↦ ?_, ne_of_eq_of_ne (hadvances.state c.visited (hnot b)) hused⟩
    obtain ⟨b', hb'⟩ := taken_iff.mp htaken'
    by_cases hb : b' = b
    · rw [hb, owns_update_self] at hb'
      rcases hadvances.slot _ hb' with hbefore | ⟨-, hunused⟩
      · exact hnot b hbefore
      · exact hused hunused
    · rw [owns_update_of_ne hb] at hb'
      exact hnot b' hb'

theorem Sound.supervises (h : c.Sound) {z : ℤ} {p : SessionProg Bool} {w : World}
    (hclear : c.Clear (.supervises z)) (hnext : c.visit.next z c.world = some (p, w)) :
    (∀ i, c.Taken i → w.session i = c.world.session i) ∧
      Sound { c with world := w, visit := p } := by
  obtain ⟨hspares, hrest⟩ := h.visit.next ⟨id, marked_of_opener h.opener⟩ hclear hnext
  have hsession : ∀ i, c.Taken i → w.session i = c.world.session i := by
    rcases hspares with hspares | hsame
    · exact hspares
    · exact fun i _ ↦ congrArg (fun c : Construction ↦ c.world.session i) hsame
  have hopener : ∀ b, (c.opener b).Sound w := fun b ↦ (h.opener b).congr fun i hi ↦ by
    rw [hsession i (taken_iff.mpr ⟨b, hi⟩)]
  exact ⟨hsession, h.alone, hopener, hrest.rely ⟨id, marked_of_opener hopener⟩⟩

/-- **A move keeps all of this.** -/
theorem Sound.step (h : c.Sound) {m : Move} (hclear : c.Clear m) (hstep : c.step m = some c') :
    c'.Sound ∧ c.OneOwner m c' := by
  have honeOwner : c'.Sound → (∀ z, m ≠ .supervises z) → c'.Sound ∧ c.OneOwner m c' :=
    fun hsound hm ↦ ⟨hsound, hsound.alone, fun z hz ↦ absurd hz (hm z)⟩
  cases m with
  | calls call =>
    obtain ⟨hidle, heq⟩ := Option.ite_none_right_eq_some.mp hstep
    cases heq
    exact honeOwner (h.calls hidle) nofun
  | opens b z =>
    obtain ⟨⟨o, w⟩, hnext, heq⟩ := Option.map_eq_some_iff.mp hstep
    cases heq
    exact honeOwner (h.opens hclear hnext) nofun
  | visits k =>
    obtain ⟨-, heq⟩ := Option.ite_none_right_eq_some.mp hstep
    cases heq
    exact honeOwner ⟨h.alone, h.opener, triple_superviseSession k _ trivial⟩ nofun
  | supervises z =>
    obtain ⟨⟨p, w⟩, hnext, heq⟩ := Option.map_eq_some_iff.mp hstep
    cases heq
    obtain ⟨hspares, hsound⟩ := h.supervises hclear hnext
    exact ⟨hsound, hsound.alone, fun _ _ ↦ hspares⟩
  | closes =>
    cases hstep
    have hopener : ∀ b, (c.opener b).Sound { c.world with handlingState := .terminating } :=
      fun b ↦ (h.opener b).congr fun _ _ ↦ rfl
    exact honeOwner ⟨h.alone, hopener, h.visit_of_rely hopener id⟩ nofun

theorem sound_of_run {w : World} {ms : List Move} (hrun : (start w).run ms = some c)
    (hclear : ∀ ms₁ m ms₂ c₁, ms = ms₁ ++ m :: ms₂ → (start w).run ms₁ = some c₁ → c₁.Clear m) :
    c.Sound :=
  foldlM_induction (fun _ _ _ h hclear hstep ↦ (h.step hclear hstep).1) hclear (.start w) hrun

/-- **A slot under construction has one owner**, and the supervisor does not touch it, in every run
in which nobody acts on what may be out of date. -/
theorem slot_under_construction_has_one_owner (w : World) (ms ms₁ ms₂ : List Move) (m : Move)
    (c c' : Construction)
    (hclear : ∀ ms₁ m ms₂ c₁, ms = ms₁ ++ m :: ms₂ → (start w).run ms₁ = some c₁ → c₁.Clear m)
    (hms : ms = ms₁ ++ m :: ms₂) (hrun : (start w).run ms₁ = some c) (hstep : c.step m = some c') :
    c.OneOwner m c' := by
  have hsound : c.Sound := by
    refine sound_of_run hrun fun ms₃ m' ms₄ c₁ heq hrun₁ ↦ ?_
    refine hclear ms₃ m' (ms₄ ++ m :: ms₂) c₁ ?_ hrun₁
    rw [hms, heq, List.append_assoc]
    rfl
  exact (hsound.step (hclear ms₁ m ms₂ c hms hrun) hstep).2

/-- The threads look at different slots, and a session in use is visited. -/
def Apart (c : Construction) : Prop :=
  (∀ i, (c.opener .main).reads = some i → (c.opener .server).clears ≠ some i) ∧
  (∀ i, (c.opener .server).reads = some i → (c.opener .main).clears ≠ some i) ∧
    (c.visit.returned = true ∨ c.Settled c.visited)

instance (c : Construction) : Decidable c.Apart := by
  unfold Apart
  infer_instance

theorem Apart.clear (h : c.Apart) (m : Move) : c.Clear m := by
  obtain ⟨hmain, hserver, hvisit⟩ := h
  cases m with
  | opens b z =>
    intro b' i hb' hreads
    cases b with
    | main =>
      cases b' with
      | main => exact absurd rfl hb'
      | server => exact hmain i hreads
    | server =>
      cases b' with
      | main => exact hserver i hreads
      | server => exact absurd rfl hb'
  | supervises z =>
    change ClearVisit c.visited c.visit c
    rcases hvisit with hreturned | hsettled
    · refine ⟨fun h ↦ ?_, fun events fd h ↦ ?_⟩
      · rw [h] at hreturned
        cases hreturned
      · rw [h] at hreturned
        cases hreturned
    · exact ⟨fun _ ↦ hsettled.2, fun _ _ _ ↦ .inr hsettled⟩
  | calls => trivial
  | visits => trivial
  | closes => trivial

/-- The main thread opens the server; then it constructs slot 1 and the server thread constructs
slot 2, while the supervisor visits slot 0. -/
theorem slot_under_construction_has_one_owner_server : ∃ ms c c',
    (start World.init).run ms = some c ∧ c.step (.supervises 0) = some c' ∧ c.Owns .main 1 ∧
      c.Owns .server 2 ∧ c.OneOwner (.supervises 0) c' := by
  let ms : List Move := [[.calls (.opens .server)], List.replicate 13 (.opens .main 3),
    [.calls (.opens .livecapture), .calls (.connects 5)], List.replicate 6 (.opens .main 0),
    List.replicate 6 (.opens .server 0), [.visits 0], List.replicate 6 (.supervises 0)].flatten
  have hruns : (((start World.init).run ms).bind fun c ↦ (c.step (.supervises 0)).map fun _ ↦
      decide (c.Owns .main 1 ∧ c.Owns .server 2)) = some true := by
    decide +kernel
  have hapart : ∀ n ≤ (ms ++ [Move.supervises 0]).length,
      ((start World.init).run ((ms ++ [Move.supervises 0]).take n)).all (fun c ↦ c.Apart)
        = true := by
    decide +kernel
  obtain ⟨c, hrun, hnext⟩ := Option.bind_eq_some_iff.mp hruns
  obtain ⟨c', hstep, howns⟩ := Option.map_eq_some_iff.mp hnext
  obtain ⟨hmain, hserver⟩ := of_decide_eq_true howns
  refine ⟨ms, c, c', hrun, hstep, hmain, hserver, ?_⟩
  refine slot_under_construction_has_one_owner World.init (ms ++ [Move.supervises 0]) ms [] _ c c'
    (fun ms₁ m ms₂ c₁ hms hrun₁ ↦ ?_) rfl hrun hstep
  exact (foldlM_all_of_take hapart hms hrun₁ : c₁.Apart).clear m

/-- Both threads read slot 1 before one of them has marked it, and both are given it. A connection
is lost while the session for it is being filled in, and the supervisor orders the session to
terminate. -/
theorem slot_under_construction_shared :
    (∃ ms m c c', (start World.init).run ms = some c ∧ c.step m = some c' ∧ c'.Owns .main 1 ∧
      c'.Owns .server 1 ∧ ¬ c.OneOwner m c') ∧
    ∃ ms z c c', (start (World.init.openFd 5 .connection)).run ms = some c ∧
      c.step (.supervises z) = some c' ∧ c.Owns .server 1 ∧
      (c.world.session 1).state = .stopped ∧ (c'.world.session 1).state = .terminate ∧
      ¬ c.OneOwner (.supervises z) c' := by
  let opened : List Move :=
    [[.calls (.opens .server)], List.replicate 13 (.opens .main 3)].flatten
  constructor
  · let ms : List Move := [opened, [.calls (.opens .livecapture), .calls (.connects 5)],
      List.replicate 4 (.opens .server 0), List.replicate 2 (.opens .main 0)].flatten
    have hruns : (((start World.init).run ms).bind fun c ↦ (c.step (.opens .server 0)).map fun c' ↦
        decide (c'.Owns .main 1 ∧ c'.Owns .server 1)) = some true := by
      decide +kernel
    obtain ⟨c, hrun, hnext⟩ := Option.bind_eq_some_iff.mp hruns
    obtain ⟨c', hstep, howns⟩ := Option.map_eq_some_iff.mp hnext
    obtain ⟨hmain, hserver⟩ := of_decide_eq_true howns
    refine ⟨ms, .opens .server 0, c, c', hrun, hstep, hmain, hserver, fun h ↦ ?_⟩
    cases h.1 1 .main .server hmain hserver
  · let ms : List Move := [opened, [.calls (.connects 5)], List.replicate 11 (.opens .server 0),
      [.visits 1], List.replicate 7 (.supervises 16)].flatten
    have hruns : (((start (World.init.openFd 5 .connection)).run ms).bind fun c ↦
        (c.step (.supervises 16)).map fun c' ↦ decide (c.Owns .server 1 ∧
          (c.world.session 1).state = .stopped ∧ (c'.world.session 1).state = .terminate))
        = some true := by
      decide +kernel
    obtain ⟨c, hrun, hnext⟩ := Option.bind_eq_some_iff.mp hruns
    obtain ⟨c', hstep, howns⟩ := Option.map_eq_some_iff.mp hnext
    obtain ⟨hserver, hstopped, hterminate⟩ := of_decide_eq_true howns
    refine ⟨ms, 16, c, c', hrun, hstep, hserver, hstopped, hterminate, fun h ↦ ?_⟩
    rw [h.2 16 rfl 1 (.inr hserver), hstopped] at hterminate
    cases hterminate

end Construction

end DistributorMerger
