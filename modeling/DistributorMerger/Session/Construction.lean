import DistributorMerger.Concurrency.Conditional
import DistributorMerger.Session.Locks

/-!
# Slots under construction

Two threads call open functions: the main thread opens what the configuration asks for, the server
thread opens a session for every connection it accepts. An open function reads the states of the
slots one by one, clears the first slot that it finds `UNUSED`, marks it `STOPPED`, fills it in and
hands it to session handling. Meanwhile the supervisor visits slots. Here all of them are
interleaved statement by statement.

No lock makes the choice of a slot and its marking one step, and the supervisor's look at
descriptors does not pass over slots that are `STOPPED`. So a slot under construction has one owner
only as long as neither gets in the way.
-/

namespace DistributorMerger

/-! ## Open functions -/

/-- No session is assigned to but the one in slot `i`. -/
def OnlyAt (i : Slot) (w w' : World) : Prop := ∀ j, j ≠ i → w'.session j = w.session j

instance (i : Slot) : Std.Refl (OnlyAt i) := ⟨fun _ _ _ ↦ rfl⟩

/-- How an open function fills in the slot that it is given. -/
structure Filler where
  /-- The statements; the result says whether the slot is to be handed to session handling. -/
  fill : Slot → SessionProg Bool
  /-- The other slots are not touched. -/
  own : ∀ i, (fill i).Within (OnlyAt i)
  /-- The state is left alone, unless the slot is given back at the end. -/
  gives : ∀ i, (fill i).ChangesLast (fun w ↦ (w.session i).state) false

section Fillers

variable {i : Slot}

theorem onlyAt_modifySession (f : Session → Session) : (modifySession i f).Within (OnlyAt i) :=
  .modify fun w _ hj ↦ World.session_modifySession_of_ne w hj f

theorem keepsState_modifySession {f : Session → Session} (hf : ∀ s, (f s).state = s.state) :
    (modifySession i f).Within fun w w' ↦ (w'.session i).state = (w.session i).state := by
  refine .modify fun w ↦ ?_
  rw [World.session_modifySession_self, hf]

theorem keepsState_read {β : Type} (g : World → β) :
    (Prog.read g : SessionProg β).Within fun w w' ↦
      (w'.session i).state = (w.session i).state :=
  ⟨fun _ _ h ↦ Option.some.inj h ▸ rfl, fun _ ↦ trivial⟩

theorem onlyAt_fields (f g h : Session → Session) :
    (do modifySession i f; modifySession i g; modifySession i h; pure true :
      SessionProg Bool).Within (OnlyAt i) :=
  (onlyAt_modifySession f).bind fun _ ↦ (onlyAt_modifySession g).bind fun _ ↦
    (onlyAt_modifySession h).bind fun _ ↦ .pure true

theorem gives_fields {f g h : Session → Session} (hf : ∀ s, (f s).state = s.state)
    (hg : ∀ s, (g s).state = s.state) (hh : ∀ s, (h s).state = s.state) :
    (do modifySession i f; modifySession i g; modifySession i h; pure true :
      SessionProg Bool).ChangesLast (fun w ↦ (w.session i).state) false :=
  .bind (keepsState_modifySession hf) fun _ ↦ .bind (keepsState_modifySession hg) fun _ ↦
    .bind (keepsState_modifySession hh) fun _ ↦ trivial

/-- A resource is opened and noted in the session, or some fields are cleared and the slot is given
back. -/
theorem onlyAt_acquire {granted : Bool} {f : World → World} {g : Session → Session}
    {p : SessionProg Bool} (hf : ∀ w, OnlyAt i w (f w)) (hp : p.Within (OnlyAt i)) :
    (if granted then do Prog.modify f; p else do
      modifySession i g
      pcapsessionChangeState i .unused
      pure false : SessionProg Bool).Within (OnlyAt i) :=
  .ite ((Prog.Within.modify hf).bind fun _ ↦ hp) ((onlyAt_modifySession g).bind fun _ ↦
    (onlyAt_modifySession _).bind fun _ ↦ .pure false)

theorem gives_acquire {granted : Bool} {f : World → World} {g : Session → Session}
    {p : SessionProg Bool} (hf : ∀ w, ((f w).session i).state = (w.session i).state)
    (hg : ∀ s, (g s).state = s.state)
    (hp : p.ChangesLast (fun w ↦ (w.session i).state) false) :
    (if granted then do Prog.modify f; p else do
      modifySession i g
      pcapsessionChangeState i .unused
      pure false : SessionProg Bool).ChangesLast (fun w ↦ (w.session i).state) false := by
  split
  · exact .bind (.modify hf) fun _ ↦ hp
  · exact .bind (keepsState_modifySession hg) fun _ ↦ .modify_return _ false

theorem onlyAt_openFd (w : World) (fd : ℤ) (d : Descriptor) (f : Session → Session) :
    OnlyAt i w ((w.openFd fd d).modifySession i f) := fun _ hj ↦
  World.session_modifySession_of_ne _ hj f

theorem state_openFd (w : World) (fd : ℤ) (d : Descriptor) {f : Session → Session}
    (hf : ∀ s, (f s).state = s.state) :
    (((w.openFd fd d).modifySession i f).session i).state = (w.session i).state := by
  rw [World.session_modifySession_self, hf]
  rfl

end Fillers

/-- How the open functions fill in the slot that they are given. -/
def OpenCall.filling : (call : OpenCall) → { f : Filler // call.prog = openSession f.fill }
  | .client _ => by
    refine ⟨⟨_, fun i ↦ ?_, fun i ↦ ?_⟩, rfl⟩
    · exact onlyAt_fields _ _ _
    · exact gives_fields (fun _ ↦ rfl) (fun _ ↦ rfl) fun _ ↦ rfl
  | .merger _ => by
    refine ⟨⟨_, fun i ↦ ?_, fun i ↦ ?_⟩, rfl⟩
    · exact onlyAt_fields _ _ _
    · exact gives_fields (fun _ ↦ rfl) (fun _ ↦ rfl) fun _ ↦ rfl
  | .server => by
    refine ⟨⟨_, fun i ↦ ?_, fun i ↦ ?_⟩, rfl⟩
    · refine (onlyAt_modifySession _).bind fun _ ↦ (onlyAt_modifySession _).bind fun _ ↦
        (Prog.Within.query _).bind fun fd ↦ (Prog.Within.read _).bind fun granted ↦ ?_
      exact onlyAt_acquire (fun w ↦ onlyAt_openFd w fd _ _)
        ((onlyAt_modifySession _).bind fun _ ↦ .pure true)
    · refine .bind (keepsState_modifySession fun _ ↦ rfl) fun _ ↦
        .bind (keepsState_modifySession fun _ ↦ rfl) fun _ ↦ .bind (.query _) fun fd ↦
          .bind (keepsState_read _) fun granted ↦ ?_
      exact gives_acquire (fun w ↦ state_openFd w fd _ fun _ ↦ rfl) (fun _ ↦ rfl)
        (.bind (keepsState_modifySession fun _ ↦ rfl) fun _ ↦ trivial)
  | .livecapture => by
    refine ⟨⟨_, fun i ↦ ?_, fun i ↦ ?_⟩, rfl⟩
    · refine (onlyAt_modifySession _).bind fun _ ↦
        (Prog.Within.query _).bind fun fd ↦ (Prog.Within.read _).bind fun granted ↦ ?_
      refine onlyAt_acquire (fun w ↦ onlyAt_openFd w fd _ _) ?_
      exact (Prog.Within.query _).bind fun selectable ↦ (onlyAt_modifySession _).bind fun _ ↦
        (onlyAt_modifySession _).bind fun _ ↦ .pure true
    · refine .bind (keepsState_modifySession fun _ ↦ rfl) fun _ ↦ .bind (.query _) fun fd ↦
        .bind (keepsState_read _) fun granted ↦ ?_
      refine gives_acquire (fun w ↦ state_openFd w fd _ fun _ ↦ rfl) (fun _ ↦ rfl) ?_
      exact .bind (.query _) fun selectable ↦ .bind (keepsState_modifySession fun _ ↦ rfl)
        fun _ ↦ .bind (keepsState_modifySession fun _ ↦ rfl) fun _ ↦ trivial
  | .filecapture _ => by
    refine ⟨⟨_, fun i ↦ ?_, fun i ↦ ?_⟩, rfl⟩
    · exact (onlyAt_modifySession _).bind fun _ ↦ (onlyAt_modifySession _).bind fun _ ↦ .pure true
    · exact .bind (keepsState_modifySession fun _ ↦ rfl) fun _ ↦
        .bind (keepsState_modifySession fun _ ↦ rfl) fun _ ↦ trivial

/-- A call of an open function. -/
inductive Call
  /-- One of the functions that the main thread calls. -/
  | opens (call : OpenCall)
  /-- `pcapsession_clientconn_open`, which the server thread calls. -/
  | connects (clientSocketFd : ℤ)

/-- The function that is called. -/
def Call.prog : Call → SessionProg (Option Slot)
  | .opens call => call.prog
  | .connects clientSocketFd => pcapsessionClientconnOpen clientSocketFd

/-- What the function does before it asks for a slot. -/
def Call.prologue : Call → SessionProg Unit
  | .opens _ => pure ()
  | .connects _ => do
    if !(← Prog.read (·.clientconnlistInitialized)) then
      Prog.modify ({ · with clientconnlist := fun _ ↦ none })
      Prog.modify ({ · with clientconnlistInitialized := true })

theorem prologue_bind (p : SessionProg (Option Slot)) :
    (do
      if !(← Prog.read (·.clientconnlistInitialized)) then
        Prog.modify ({ · with clientconnlist := fun _ ↦ none })
        Prog.modify ({ · with clientconnlistInitialized := true })
      p : SessionProg (Option Slot)) = (Call.connects 0).prologue >>= fun _ ↦ p := by
  rw [Call.prologue, bind_assoc]
  refine congrArg (Prog.bind (Prog.read _)) (funext fun initialized ↦ ?_)
  cases initialized <;> rfl

/-- How the function fills in the slot. -/
def Call.filling : (call : Call) →
    { f : Filler // call.prog = call.prologue >>= fun _ ↦ openSession f.fill }
  | .opens call => call.filling
  | .connects _ => by
    refine ⟨⟨_, fun i ↦ ?_, fun i ↦ ?_⟩, prologue_bind _⟩
    · exact onlyAt_fields _ _ _
    · exact gives_fields (fun _ ↦ rfl) (fun _ ↦ rfl) fun _ ↦ rfl

/-! ## Phases of an open function -/

/-- The assignments that `pcapsession_handling_get_new` makes to the slot it has selected. -/
def clearing (i : Slot) : List (Session → Session) :=
  [fun _ ↦ Session.zero, ({ · with id := i }), ({ · with pcapMutex := none }),
    ({ · with state := .stopped })]

/-- How far a thread that opens a session has come. -/
inductive Opener
  /-- It executes no open function; the result of the last one is kept. -/
  | done (result : Option Slot)
  /-- It has not asked for a slot yet. -/
  | begins (p : SessionProg Unit) (f : Filler)
  /-- It looks for a slot that is `UNUSED`; these are still to be looked at. -/
  | scans (slots : List Slot) (f : Filler)
  /-- It has selected slot `i` and clears it; the last assignment marks the slot `STOPPED`. -/
  | selects (i : Slot) (assignments : List (Session → Session)) (f : Filler)
  /-- It fills in slot `i`. -/
  | fills (i : Slot) (p : SessionProg Bool)
  /-- It calls `pcapsession_handling_add` for slot `i`. -/
  | hands (i : Slot)
  /-- It is about to assign the number of the slot once more. -/
  | adds (i : Slot)

namespace Opener

/-- The prologue goes on, or is over. -/
def begun (f : Filler) : SessionProg Unit → Opener
  | .ret _ => scans (List.finRange pcapSessionMaxSessions) f
  | p => begins p f

/-- The scan goes on, or has found no slot. -/
def scanned (f : Filler) : List Slot → Opener
  | [] => done none
  | slots => scans slots f

/-- Filling in goes on, or is over. -/
def filled (i : Slot) : SessionProg Bool → Opener
  | .ret true => hands i
  | .ret false => done none
  | p => fills i p

/-- Clearing goes on, or is over. -/
def selected (i : Slot) (f : Filler) : List (Session → Session) → Opener
  | [] => filled i (f.fill i)
  | assignments => selects i assignments f

/-- The next statement, when the environment answers `z`. -/
def next (z : ℤ) : Opener → World → Option (Opener × World)
  | begins p f, w => (p.next z w).map fun x ↦ (begun f x.1, x.2)
  | scans (i :: slots) f, w =>
    some (if (w.session i).state = .unused then selects i (clearing i) f else scanned f slots, w)
  | selects i (g :: assignments) f, w =>
    some (selected i f assignments, w.modifySession i g)
  | fills i p, w => (p.next z w).map fun x ↦ (filled i x.1, x.2)
  | hands i, w => some (adds i, w.modifySession i ({ · with state := .start }))
  | adds i, w => some (done (some i), w.modifySession i ({ · with id := i }))
  | done _, _ | scans [] _, _ | selects _ [] _, _ => none

/-- What is left of the open function when the slot has been filled in. -/
def handing (i : Slot) (filledIn : Bool) : SessionProg (Option Slot) := do
  if filledIn then
    let _ ← pcapsessionHandlingAdd i
    pure (some i)
  else pure none

/-- What is left of the open function when a slot has been selected. -/
def assigning (i : Slot) (f : Filler) : List (Session → Session) → SessionProg (Option Slot)
  | [] => f.fill i >>= handing i
  | g :: assignments => do
    modifySession i g
    assigning i f assignments

/-- What is left of the open function. -/
def prog : Opener → SessionProg (Option Slot)
  | done result => pure result
  | begins p f => p >>= fun _ ↦ openSession f.fill
  | scans slots f => findUnused slots >>= fun
    | none => pure none
    | some i => assigning i f (clearing i)
  | selects i assignments f => assigning i f assignments
  | fills i p => p >>= handing i
  | hands i => handing i true
  | adds i => do
    modifySession i ({ · with id := i })
    pure (some i)

/-- The slot under construction, from the moment it is selected until it is handed to session
handling or given back. -/
def slot : Opener → Option Slot
  | selects i _ _ | fills i _ | hands i => some i
  | done _ | begins _ _ | scans _ _ | adds _ => none

variable (f : Filler) (i : Slot) (z : ℤ) (w : World)

theorem openSession_eq : openSession f.fill
    = (scans (List.finRange pcapSessionMaxSessions) f).prog := by
  rw [openSession, pcapsessionHandlingGetNew, bind_assoc]
  refine congrArg (Prog.bind (findUnused _)) (funext fun found ↦ ?_)
  cases found with
  | none => rfl
  | some i => rfl

theorem prog_begun (p : SessionProg Unit) :
    (begun f p).prog = p >>= fun _ ↦ openSession f.fill := by
  cases p with
  | ret _ => exact (openSession_eq f).symm
  | act => rfl
  | ask => rfl

theorem prog_scanned (slots : List Slot) : (scanned f slots).prog = (scans slots f).prog := by
  cases slots <;> rfl

theorem prog_filled (p : SessionProg Bool) : (filled i p).prog = p >>= handing i := by
  cases p with
  | ret b => cases b <;> rfl
  | act => rfl
  | ask => rfl

theorem prog_selected (assignments : List (Session → Session)) :
    (selected i f assignments).prog = assigning i f assignments := by
  cases assignments with
  | nil => exact prog_filled i _
  | cons => rfl

/-- There is a next statement, or the function has returned. -/
def Proper : Opener → Prop
  | begins p _ => ∀ a, p ≠ .ret a
  | scans slots _ => slots ≠ []
  | selects _ assignments _ => assignments ≠ []
  | fills _ p => ∀ b, p ≠ .ret b
  | done _ | hands _ | adds _ => True

theorem proper_begun (p : SessionProg Unit) : (begun f p).Proper := by
  cases p with
  | ret _ => exact List.ne_nil_of_mem (List.mem_finRange 0)
  | act => exact fun _ ↦ nofun
  | ask => exact fun _ ↦ nofun

theorem proper_filled (p : SessionProg Bool) : (filled i p).Proper := by
  cases p with
  | ret b => cases b <;> trivial
  | act => exact fun _ ↦ nofun
  | ask => exact fun _ ↦ nofun

theorem proper_next {o o' : Opener} {w' : World} (h : o.next z w = some (o', w')) :
    o'.Proper := by
  cases o with
  | done => cases h
  | begins p f =>
    obtain ⟨⟨p', w₁⟩, -, heq⟩ := Option.map_eq_some_iff.mp h
    cases heq
    exact proper_begun f p'
  | scans slots f =>
    cases slots with
    | nil => cases h
    | cons i slots =>
      obtain ⟨rfl, -⟩ := Prod.mk.inj (Option.some.inj h)
      split
      · exact List.cons_ne_nil _ _
      · cases slots with
        | nil => trivial
        | cons => exact List.cons_ne_nil _ _
  | selects i assignments f =>
    cases assignments with
    | nil => cases h
    | cons g assignments =>
      cases h
      cases assignments with
      | nil => exact proper_filled i _
      | cons => exact List.cons_ne_nil _ _
  | fills i p =>
    obtain ⟨⟨p', w₁⟩, -, heq⟩ := Option.map_eq_some_iff.mp h
    cases heq
    exact proper_filled i p'
  | hands i =>
    cases h
    trivial
  | adds i =>
    cases h
    trivial

/-- **The phases are those of the open functions.** The next statement of a phase is the next
statement of what is left of the function. -/
theorem next_prog {o : Opener} (h : o.Proper) :
    o.prog.next z w = (o.next z w).map fun x ↦ (x.1.prog, x.2) := by
  cases o with
  | done => rfl
  | begins p f =>
    rw [next, Option.map_map, prog, Prog.next_bind h]
    refine congrArg (Option.map · (p.next z w)) (funext fun x ↦ ?_)
    exact congrArg (·, x.2) (prog_begun f x.1).symm
  | scans slots f =>
    cases slots with
    | nil => exact absurd rfl h
    | cons i slots =>
      rw [next, Option.map_some]
      change some
        ((if (w.session i).state = .unused then pure (some i) else findUnused slots) >>= _, w) = _
      split
      · rfl
      · rw [prog_scanned]
        rfl
  | selects i assignments f =>
    cases assignments with
    | nil => exact absurd rfl h
    | cons g assignments =>
      rw [next, Option.map_some, prog_selected]
      rfl
  | fills i p =>
    rw [next, Option.map_map, prog, Prog.next_bind h]
    refine congrArg (Option.map · (p.next z w)) (funext fun x ↦ ?_)
    exact congrArg (·, x.2) (prog_filled i x.1).symm
  | hands i => rfl
  | adds i => rfl

end Opener

theorem Call.prog_begun (call : Call) :
    (Opener.begun call.filling.1 call.prologue).prog = call.prog := by
  rw [Opener.prog_begun]
  exact call.filling.2.symm

end DistributorMerger
