import DistributorMerger.Session.RunnerSteps

/-!
# A visit on its own

What a supervisor visit does when nothing interferes with it, as a function of the world and of the
answers it gets. A visit first orders a stop or leaves the state as it is, then makes at most one
transition; a stop that is ordered empties the session, and with it the slot unless the session is
to be restarted.
-/

namespace DistributorMerger

section Visit

variable (answer : Query → ℤ) (i : Slot) (w : World)

/-! ## Orders -/

/-- The supervised descriptor of the session is found lost. -/
def World.Lost : Prop :=
  (w.session i).superviseFd = true ∧ (w.session i).fd > 2 ∧
    ¬ w.seemsOpen (answer (.pollSupervised i)) (w.session i).fd

instance : Decidable (w.Lost answer i) := by
  unfold World.Lost
  infer_instance

/-- The state that the orders at the beginning of a visit leave behind. A descriptor that is found
lost overrides the order to abort. -/
def World.orderedState : SessionState :=
  if w.Lost answer i then .terminate
  else if w.handlingState ≠ .running ∧ (w.session i).state ≠ .stopped ∧
    (w.session i).state ≠ .aborting then .abort
  else (w.session i).state

/-- The visit stops the session. -/
def World.Stops : Prop :=
  (w.session i).state ≠ .unused ∧
    (w.orderedState answer i = .terminate ∨ w.orderedState answer i = .abort)

instance : Decidable (w.Stops answer i) := by
  unfold World.Stops
  infer_instance

/-- `pcapsession_change_state`. -/
def World.setState (newState : SessionState) : World :=
  w.modifySession i ({ · with state := newState })

@[simp] theorem World.setState_self : w.setState i (w.session i).state = w :=
  World.modifySession_of_eq w rfl

@[simp] theorem World.setState_setState (s s' : SessionState) :
    (w.setState i s).setState i s' = w.setState i s' := World.modifySession_modifySession ..

@[simp] theorem World.state_setState (s : SessionState) :
    ((w.setState i s).session i).state = s := by
  rw [World.setState, World.session_modifySession_self]

/-- The state after the order to abort. -/
def World.abortState : SessionState :=
  if w.handlingState ≠ .running ∧ (w.session i).state ≠ .stopped ∧
    (w.session i).state ≠ .aborting then .abort else (w.session i).state

theorem exec_orderAbort :
    (orderAbort i).exec answer w = some ((), w.setState i (w.abortState i)) := by
  have hexec : (orderAbort i).exec answer w
      = some ((), if w.handlingState ≠ .running ∧ (w.session i).state ≠ .stopped ∧
          (w.session i).state ≠ .aborting then w.setState i .abort else w) := by
    unfold orderAbort World.setState
    by_cases h₁ : w.handlingState = .running
    · simp [h₁]
    · by_cases h₂ : (w.session i).state = .stopped
      · simp [h₂]
      · by_cases h₃ : (w.session i).state = .aborting
        · simp [h₃]
        · simp [h₁, h₂, h₃]
  rw [hexec, World.abortState]
  split
  · rfl
  · rw [World.setState_self]

theorem exec_checkDescriptor :
    (checkDescriptor i).exec answer w
      = some ((), w.setState i (if w.Lost answer i then .terminate else (w.session i).state)) := by
  have hexec : (checkDescriptor i).exec answer w
      = some ((), if w.Lost answer i then w.setState i .terminate else w) := by
    unfold checkDescriptor World.setState World.Lost
    by_cases h₁ : (w.session i).superviseFd = true
    · by_cases h₂ : (w.session i).fd > 2
      · by_cases h₃ : w.seemsOpen (answer (.pollSupervised i)) (w.session i).fd
        · simp [h₁, h₂, h₃]
        · simp [h₁, h₂, h₃]
      · simp [h₁, h₂]
    · simp [h₁]
  rw [hexec]
  split
  · rfl
  · rw [World.setState_self]

theorem exec_orders :
    (do orderAbort i; checkDescriptor i : SessionProg Unit).exec answer w
      = some ((), w.setState i (w.orderedState answer i)) := by
  have hlost : (w.setState i (w.abortState i)).Lost answer i ↔ w.Lost answer i := by
    unfold World.Lost World.setState
    rw [World.session_modifySession_self]
    rfl
  rw [Prog.exec_bind, exec_orderAbort, Option.bind_some, exec_checkDescriptor]
  simp only [hlost, World.setState_setState, World.state_setState]
  rfl

/-! ## Stops -/

/-- The thread of the session is cancelled, joined and forgotten. -/
def World.joined : World :=
  if (w.session i).thread = 0 then w
  else ((w.cancelThread (w.session i).thread).joinThread (w.session i).thread).modifySession i
    ({ · with thread := 0 })

/-- The slot of a session that is stopped is given back. -/
def World.released : World :=
  if (w.session i).state = .stopped then w.modifySession i ({ · with state := .unused }) else w

/-- A stop that is ordered with a state is carried out. -/
def World.stopAs (m : Module) (newState : SessionState) : World :=
  (((w.modifySession i ({ · with state := newState, intervalCounter := 0 })).joined i).afterStop
    answer i m).released i

theorem exec_stopAndRelease {m : Module} (hm : (w.session i).module = some m) :
    (stopAndRelease i).exec answer w = some ((), (w.afterStop answer i m).released i) := by
  simp only [stopAndRelease, Prog.exec_bind, exec_readSession, Option.bind_some, hm, exec_stopper,
    Prog.exec_ite, exec_pcapsessionChangeState, Prog.exec_pure]
  rw [World.released]
  split <;> rfl

theorem exec_pcapsessionStop {m : Module} (hm : (w.session i).module = some m) :
    (pcapsessionStop i).exec answer w
      = some ((), ((w.joined i).afterStop answer i m).released i) := by
  have hjoined : ((w.joined i).session i).module = some m := by
    unfold World.joined
    split
    · exact hm
    · rw [World.session_modifySession_self]
      exact hm
  rw [← exec_stopAndRelease _ _ _ hjoined, pcapsessionStop, Prog.exec_bind, exec_readSession,
    Option.bind_some]
  unfold World.joined
  by_cases h : (w.session i).thread = 0
  · rw [if_pos h]
    exact congrArg (fun p : SessionProg Unit ↦ p.exec answer w) (if_neg (not_not.mpr h))
  · rw [if_neg h, if_pos h]
    rfl

theorem exec_orderStop {m : Module} (hm : (w.session i).module = some m)
    (newState : SessionState) :
    (orderStop i newState).exec answer w = some ((), w.stopAs answer i m newState) := by
  have hm' : ((w.modifySession i ({ · with state := newState, intervalCounter := 0 })).session
      i).module = some m := by
    rw [World.session_modifySession_self]
    exact hm
  rw [orderStop, Prog.exec_bind, exec_pcapsessionChangeState, Option.bind_some, Prog.exec_bind,
    exec_modifySession, Option.bind_some, World.modifySession_modifySession,
    exec_pcapsessionStop _ _ _ hm']
  rfl

/-! ## What a stop leaves behind -/

theorem World.session_joined_self :
    (w.joined i).session i = { w.session i with thread := 0 } := by
  unfold World.joined
  split
  · rename_i h
    rw [← h]
  · rw [World.session_modifySession_self]
    rfl

theorem World.session_joined_of_ne {j : Slot} (hj : j ≠ i) :
    (w.joined i).session j = w.session j := by
  unfold World.joined
  split
  · rfl
  · rw [World.session_modifySession_of_ne _ hj]
    rfl

theorem World.joined_rest :
    w.joined i = { w with session := (w.joined i).session, threads := (w.joined i).threads,
                          cancelled := (w.joined i).cancelled } := by
  unfold World.joined
  split <;> rfl

theorem World.threads_joined (t : ℕ) :
    (w.joined i).threads t
      = if (w.session i).thread ≠ 0 ∧ t = (w.session i).thread then none else w.threads t := by
  unfold World.joined
  split
  · rename_i h
    rw [if_neg (fun h' ↦ h'.1 h)]
  · rename_i h
    rw [World.modifySession_threads, World.threads_joinThread]
    by_cases ht : t = (w.session i).thread
    · rw [if_pos ht, if_pos ⟨h, ht⟩]
    · rw [if_neg ht, if_neg (fun h' ↦ ht h'.2)]
      rfl

theorem World.sessionFds_congr {w' : World} (hopen : w'.openFds = w.openFds)
    (hfd : (w'.session i).fd = (w.session i).fd) :
    w'.sessionFds answer i = w.sessionFds answer i := by
  have hseems : ∀ events fd, w'.seemsOpen events fd ↔ w.seemsOpen events fd := fun events fd ↦ by
    rw [World.seemsOpen, World.seemsOpen, hopen]
  rw [World.sessionFds, World.sessionFds, hfd]
  exact if_congr (and_congr Iff.rfl (hseems _ _)) rfl rfl

theorem World.dumperFds_congr {w' : World} (hopen : w'.openFds = w.openFds)
    (hdumper : (w'.session i).pcapDumper = (w.session i).pcapDumper) :
    w'.dumperFds answer i = w.dumperFds answer i := by
  have hseems : ∀ events fd, w'.seemsOpen events fd ↔ w.seemsOpen events fd := fun events fd ↦ by
    rw [World.seemsOpen, World.seemsOpen, hopen]
  rw [World.dumperFds, World.dumperFds, hdumper]
  cases (w.session i).pcapDumper with
  | none => rfl
  | some dumper => exact if_congr (and_congr (hseems _ _) (hseems _ _)) rfl rfl

theorem World.stopDumpers_congr {w' : World} (m : Module) (hopen : w'.openFds = w.openFds)
    (hdumper : (w'.session i).pcapDumper = (w.session i).pcapDumper) :
    w'.stopDumpers answer i m = w.stopDumpers answer i m := by
  have hseems : ∀ events fd, w'.seemsOpen events fd ↔ w.seemsOpen events fd := fun events fd ↦ by
    rw [World.seemsOpen, World.seemsOpen, hopen]
  have hids : w'.dumperIds answer i = w.dumperIds answer i := by
    rw [World.dumperIds, World.dumperIds, hdumper]
    cases (w.session i).pcapDumper with
    | none => rfl
    | some dumper => exact if_congr (and_congr (hseems _ _) (hseems _ _)) rfl rfl
  cases m <;> simp only [World.stopDumpers, hids]

/-- What a stopper closes depends on the descriptors of the session only. -/
theorem World.stopFds_congr {w' : World} (m : Module) (hopen : w'.openFds = w.openFds)
    (hfd : (w'.session i).fd = (w.session i).fd)
    (hhandle : (w'.session i).pcapHandle = (w.session i).pcapHandle)
    (hdumper : (w'.session i).pcapDumper = (w.session i).pcapDumper) :
    w'.stopFds answer i m = w.stopFds answer i m := by
  have hh : (w'.session i).handleFds = (w.session i).handleFds := by
    rw [Session.handleFds, Session.handleFds, hhandle]
  have hd : w'.dumperFds answer i = w.dumperFds answer i := w.dumperFds_congr answer i hopen hdumper
  have hs : ∀ fds, (w'.closeAll fds).sessionFds answer i = (w.closeAll fds).sessionFds answer i :=
    fun fds ↦ World.sessionFds_congr _ _ _ (congrArg (· \ fds) hopen) hfd
  cases m <;> simp only [World.stopFds, hh, hd, hs, hfd]

/-- The session after a stop. -/
def Session.stopAs (s : Session) (m : Module) (newState : SessionState) : Session :=
  let s' := Session.afterStop { s with state := newState, intervalCounter := 0, thread := 0 } m
  if s'.state = .stopped then { s' with state := .unused } else s'

theorem Session.state_stopAs (s : Session) (m : Module) (newState : SessionState) :
    (s.stopAs m newState).state
      = if Session.stateAfterStop { s with state := newState } m = .stopped then .unused
        else .start := by
  have hcongr : Session.stateAfterStop
      { s with state := newState, intervalCounter := 0, thread := 0 } m
        = Session.stateAfterStop { s with state := newState } m := by cases m <;> rfl
  simp only [Session.stopAs, Session.state_afterStop, hcongr]
  rcases Session.stateAfterStop_cases { s with state := newState } m with h | h
  · rw [if_pos h, if_pos h]
  · rw [if_neg (by rw [h]; decide), if_neg (by rw [h]; decide), Session.state_afterStop, hcongr, h]

theorem Session.state_stopAs_aborting (s : Session) (m : Module) :
    (s.stopAs m .aborting).state = .unused := by
  rw [Session.state_stopAs]
  cases m <;> rfl

theorem World.session_released_self :
    (w.released i).session i
      = if (w.session i).state = .stopped then { w.session i with state := .unused }
        else w.session i := by
  unfold World.released
  split
  · rw [World.session_modifySession_self]
  · rfl

theorem World.session_afterStop_self (m : Module) :
    (w.afterStop answer i m).session i = (w.session i).afterStop m := by
  rw [World.afterStop, World.session_modifySession_self, World.shutAll_session,
    World.closeAll_session]
  split <;> rfl

theorem World.session_stopAs_self (m : Module) (newState : SessionState) :
    (w.stopAs answer i m newState).session i = (w.session i).stopAs m newState := by
  rw [World.stopAs, World.session_released_self, World.session_afterStop_self,
    World.session_joined_self, World.session_modifySession_self]
  rfl

theorem World.session_stopAs_of_ne (m : Module) (newState : SessionState) {j : Slot} (hj : j ≠ i) :
    (w.stopAs answer i m newState).session j = w.session j := by
  have hreleased : ∀ w' : World, (w'.released i).session j = w'.session j := by
    intro w'
    unfold World.released
    split
    · rw [World.session_modifySession_of_ne _ hj]
    · rfl
  have hunlist : ∀ w' : World, (if m = .clientconn then w'.unlist i else w').session
      = w'.session := by
    intro w'
    split <;> rfl
  rw [World.stopAs, hreleased, World.afterStop, World.session_modifySession_of_ne _ hj,
    World.shutAll_session, World.closeAll_session, hunlist, World.session_joined_of_ne _ _ hj,
    World.session_modifySession_of_ne _ hj]

/-- A stop changes nothing outside its session but threads, the list of client connections and the
open descriptors. -/
theorem World.stopAs_rest (m : Module) (newState : SessionState) :
    w.stopAs answer i m newState
      = { w with session := (w.stopAs answer i m newState).session
                 threads := (w.joined i).threads
                 cancelled := (w.joined i).cancelled
                 clientconnlist := if m = .clientconn then Function.update w.clientconnlist i none
                   else w.clientconnlist
                 openFds := w.openFds \ w.stopFds answer i m
                 closedDumpers := w.closedDumpers ∪ w.stopDumpers answer i m } := by
  let w₁ := w.modifySession i ({ · with state := newState, intervalCounter := 0 })
  have hjoined : (w₁.joined i).threads = (w.joined i).threads ∧
      (w₁.joined i).cancelled = (w.joined i).cancelled ∧ (w₁.joined i).openFds = w.openFds := by
    simp only [World.joined, w₁, World.session_modifySession_self]
    split <;> exact ⟨rfl, rfl, rfl⟩
  -- what is looked at and closed does not depend on the state that was set or on the join
  have hfds : (w₁.joined i).stopFds answer i m = w.stopFds answer i m := by
    refine World.stopFds_congr _ _ _ m hjoined.2.2 ?_ ?_ ?_
    · rw [World.session_joined_self, World.session_modifySession_self]
    · rw [World.session_joined_self, World.session_modifySession_self]
    · rw [World.session_joined_self, World.session_modifySession_self]
  have hids : (w₁.joined i).stopDumpers answer i m = w.stopDumpers answer i m := by
    refine World.stopDumpers_congr _ _ _ m hjoined.2.2 ?_
    rw [World.session_joined_self, World.session_modifySession_self]
  have hreleased : ∀ w' : World, w'.released i
    = { w' with session := (w'.released i).session } := by
    intro w'
    unfold World.released
    split <;> rfl
  have hafter : ∀ w' : World, w'.afterStop answer i m
      = { w' with session := (w'.afterStop answer i m).session
                  clientconnlist := if m = .clientconn then Function.update w'.clientconnlist i none
                    else w'.clientconnlist
                  openFds := w'.openFds \ w'.stopFds answer i m
                  closedDumpers := w'.closedDumpers ∪ w'.stopDumpers answer i m } := by
    intro w'
    unfold World.afterStop
    split <;> rfl
  ext1
  case session => rfl
  case threads =>
    rw [World.stopAs, hreleased, hafter]
    exact hjoined.1
  case cancelled =>
    rw [World.stopAs, hreleased, hafter]
    exact hjoined.2.1
  case openFds =>
    rw [World.stopAs, hreleased, hafter, hfds, hjoined.2.2]
  case closedDumpers =>
    rw [World.stopAs, hreleased, hafter, hids, World.joined_rest]
    rfl
  all_goals
    rw [World.stopAs, hreleased, hafter, World.joined_rest]
    rfl

/-! ## Visits -/

/-- A start that is ordered. -/
def World.startOrdered : World :=
  w.modifySession i ({ · with state := .starting, intervalCounter := 0 })

theorem World.session_startOrdered_self :
    (w.startOrdered i).session i = { w.session i with state := .starting, intervalCounter := 0 } :=
  World.session_modifySession_self ..

theorem World.session_startOrdered_of_ne {j : Slot} (hj : j ≠ i) :
    (w.startOrdered i).session j = w.session j := World.session_modifySession_of_ne _ hj _

/-- What a visit does to a session that is not in the middle of a stop. -/
inductive VisitEffect : World → Prop
  /-- The slot is unused. -/
  | skipped (h : (w.session i).state = .unused) : VisitEffect w
  /-- The session stays as it is; a running one is tended. -/
  | tended {w' : World} (hused : (w.session i).state ≠ .unused)
      (h : w.orderedState answer i = .running ∨ w.orderedState answer i = .stopped)
      (htends : Tends w w') : VisitEffect w'
  /-- A thread is created for the session. -/
  | started (m : Module) (h : w.orderedState answer i = .start)
      (hm : (w.session i).module = some m) (hcreate : answer (.pthreadCreate i) = 0) :
      VisitEffect ((w.startOrdered i).createThread i m)
  /-- No thread could be created. -/
  | startFailed (m : Module) (h : w.orderedState answer i = .start)
      (hm : (w.session i).module = some m) (hcreate : answer (.pthreadCreate i) ≠ 0) :
      VisitEffect (w.startOrdered i)
  /-- The session has not begun to run yet. -/
  | waited (h : w.orderedState answer i = .starting)
      (hcount : (w.session i).intervalCounter < pcapSessionSupervisionTransitionIntervals) :
      VisitEffect (w.modifySession i fun s ↦ { s with intervalCounter := s.intervalCounter + 1 })
  /-- The session has not begun to run in time. -/
  | timedOut (h : w.orderedState answer i = .starting)
      (hcount : pcapSessionSupervisionTransitionIntervals ≤ (w.session i).intervalCounter) :
      VisitEffect (w.setState i .terminate)
  /-- The session is stopped. -/
  | stopped (m : Module) (newState : SessionState)
      (h : w.orderedState answer i = .terminate ∧ newState = .terminating ∨
        w.orderedState answer i = .abort ∧ newState = .aborting)
      (hused : (w.session i).state ≠ .unused) (hm : (w.session i).module = some m) :
      VisitEffect (w.stopAs answer i m newState)

variable {answer i w}

theorem World.orderedState_eq_state (h : w.orderedState answer i ≠ .terminate)
    (h' : w.orderedState answer i ≠ .abort) : w.orderedState answer i = (w.session i).state := by
  unfold World.orderedState at *
  by_cases hlost : w.Lost answer i
  · rw [if_pos hlost] at h
    exact absurd rfl h
  · rw [if_neg hlost] at h' ⊢
    split at h'
    · exact absurd rfl h'
    · rw [if_neg ‹_›]

theorem VisitEffect.eq_stopAs {w' : World} (h : VisitEffect answer i w w')
    (hstops : w.Stops answer i) : ∃ m newState, (w.session i).module = some m ∧
      (w.orderedState answer i = .terminate ∧ newState = .terminating ∨
        w.orderedState answer i = .abort ∧ newState = .aborting) ∧
      w' = w.stopAs answer i m newState := by
  obtain ⟨hused, horder⟩ := hstops
  have hother : ∀ {state : SessionState}, w.orderedState answer i = state →
      state ≠ .terminate → state ≠ .abort → False := by
    rintro state rfl hterminate habort
    exact horder.elim hterminate habort
  cases h with
  | skipped hunused => exact absurd hunused hused
  | tended _ h => exact (h.elim (hother · nofun nofun) (hother · nofun nofun)).elim
  | started m h => exact (hother h nofun nofun).elim
  | startFailed m h => exact (hother h nofun nofun).elim
  | waited h => exact (hother h nofun nofun).elim
  | timedOut h => exact (hother h nofun nofun).elim
  | stopped m newState h _ hm => exact ⟨m, newState, hm, h, rfl⟩

theorem VisitEffect.unmoved {w' : World} (h : VisitEffect answer i w w') {j : Slot} (hj : j ≠ i) :
    (w.session j).Unmoved (w'.session j) := by
  cases h with
  | skipped => exact .refl _
  | tended _ _ htends => exact htends.session j
  | started =>
    rw [World.session_createThread_of_ne _ _ hj, World.session_startOrdered_of_ne _ _ hj]
    exact .refl _
  | startFailed => exact w.unmoved_modifySession_of_ne hj _
  | waited => exact w.unmoved_modifySession_of_ne hj _
  | timedOut => exact w.unmoved_modifySession_of_ne hj _
  | stopped =>
    rw [World.session_stopAs_of_ne _ _ _ _ _ hj]
    exact .refl _

/-- What comes after the transition of a visit. -/
def tendSession (i : Slot) : SessionProg Bool := do
  if (← readSession i (·.state)) = .running then
    flushIdleDumper i
    superviseMonitor i
  pure true

theorem within_tendSession (i : Slot) : (tendSession i).Within Tends := by
  refine (Prog.Within.read _).bind fun state ↦ .ite ?_ (.pure true)
  exact (within_flushIdleDumper i).bind fun _ ↦ (within_superviseMonitor i).bind fun _ ↦ .pure true

theorem eq_of_exec_tendSession {w' : World} {counted : Bool} (h : (w.session i).state ≠ .running)
    (hexec : (tendSession i).exec answer w = some (counted, w')) : w' = w := by
  rw [tendSession, Prog.exec_bind, exec_readSession, Option.bind_some, if_neg h] at hexec
  cases hexec
  rfl

/-- A visit makes its transition after the orders. -/
theorem exec_superviseSession (hused : (w.session i).state ≠ .unused) :
    (superviseSession i).exec answer w
      = ((pcapsessionTransitionSession i).exec answer
          (w.setState i (w.orderedState answer i))).bind fun x ↦
            (tendSession i).exec answer x.2 := by
  have horders := exec_orders answer i w
  rw [Prog.exec_bind] at horders
  rw [superviseSession, Prog.exec_bind, exec_readSession, Option.bind_some, if_neg hused,
    Prog.exec_bind]
  cases habort : (orderAbort i).exec answer w with
  | none =>
    rw [habort] at horders
    cases horders
  | some x =>
    rw [habort, Option.bind_some] at horders
    rw [Option.bind_some, Prog.exec_bind, horders, Option.bind_some, Prog.exec_bind]
    rfl

theorem exec_transition (state : SessionState) :
    (pcapsessionTransitionSession i).exec answer (w.setState i state)
      = (transitionFrom i state).exec answer (w.setState i state) := by
  rw [pcapsessionTransitionSession_eq, Prog.exec_bind, exec_readSession, Option.bind_some,
    World.state_setState]

theorem World.stopAs_setState (m : Module) (s newState : SessionState) :
    (w.setState i s).stopAs answer i m newState = w.stopAs answer i m newState := by
  rw [World.stopAs, World.setState, World.modifySession_modifySession]
  rfl

theorem exec_pcapsessionStart {m : Module} (hstate : (w.session i).state = .starting)
    (hm : (w.session i).module = some m) :
    (pcapsessionStart i).exec answer w
      = some (decide (answer (.pthreadCreate i) = 0),
          if answer (.pthreadCreate i) = 0 then w.createThread i m else w) := by
  rw [pcapsessionStart, Prog.exec_bind, exec_readSession, Option.bind_some, hstate,
    if_neg (not_not.mpr rfl), Prog.exec_bind, pthreadCreate, Prog.exec_bind, Prog.exec_query,
    Option.bind_some, Prog.exec_bind, exec_readSession, Option.bind_some, hm]
  by_cases hcreate : answer (.pthreadCreate i) = 0
  · simp [hcreate]
  · simp [hcreate]

/-- An order puts no session in the middle of a stop, or in an unused slot. -/
theorem World.orderedState_cases (hused : (w.session i).state ≠ .unused)
    (hcalm : (w.session i).state.Calm) :
    (w.orderedState answer i = (w.session i).state ∧
      (w.orderedState answer i = .running ∨ w.orderedState answer i = .stopped ∨
        w.orderedState answer i = .start ∨ w.orderedState answer i = .starting)) ∨
      w.orderedState answer i = .terminate ∨ w.orderedState answer i = .abort := by
  by_cases hterminate : w.orderedState answer i = .terminate
  · exact .inr (.inl hterminate)
  · by_cases habort : w.orderedState answer i = .abort
    · exact .inr (.inr habort)
    · have heq := World.orderedState_eq_state hterminate habort
      refine .inl ⟨heq, ?_⟩
      obtain ⟨-, hterminating, haborting⟩ := hcalm
      rw [heq] at hterminate habort ⊢
      cases hstate : (w.session i).state <;> simp_all

theorem exec_transitionFrom_start {m : Module} (hm : (w.session i).module = some m) :
    (transitionFrom i .start).exec answer w
      = some ((), if answer (.pthreadCreate i) = 0 then (w.startOrdered i).createThread i m
          else w.startOrdered i) := by
  have hstart := w.session_startOrdered_self i
  have hexec := @exec_pcapsessionStart answer i (w.startOrdered i) m
    (by rw [hstart]) (by rw [hstart]; exact hm)
  simp only [transitionFrom, Prog.exec_bind, exec_pcapsessionChangeState, exec_modifySession,
    Option.bind_some, World.modifySession_modifySession]
  rw [← World.startOrdered, hexec]
  rfl

theorem exec_transitionFrom_starting :
    (transitionFrom i .starting).exec answer w
      = some ((), if pcapSessionSupervisionTransitionIntervals ≤ (w.session i).intervalCounter
          then w.setState i .terminate
          else w.modifySession i fun s ↦ { s with intervalCounter := s.intervalCounter + 1 }) := by
  rw [transitionFrom, countInterval, Prog.exec_bind, exec_readSession, Option.bind_some,
    Prog.exec_ite]
  split <;> rfl

/-- **What a visit does on its own.** -/
theorem visitEffect_of_exec {w' : World} {counted : Bool} (hcalm : (w.session i).state.Calm)
    (hmodule : (w.session i).state ≠ .unused → ∃ m, (w.session i).module = some m)
    (h : (superviseSession i).exec answer w = some (counted, w')) : VisitEffect answer i w w' := by
  by_cases hused : (w.session i).state = .unused
  · rw [superviseSession, Prog.exec_bind, exec_readSession, Option.bind_some, if_pos hused] at h
    cases h
    exact .skipped hused
  · obtain ⟨m, hm⟩ := hmodule hused
    rw [exec_superviseSession hused, exec_transition] at h
    -- The orders leave the world as it is, unless they order a stop.
    have hset : w.orderedState answer i = (w.session i).state →
        w.setState i (w.orderedState answer i) = w := fun heq ↦ by rw [heq, World.setState_self]
    have hstop : ∀ newState, ((orderStop i newState).exec answer
        (w.setState i (w.orderedState answer i))).bind (fun x ↦ (tendSession i).exec answer x.2)
          = some (counted, w') → w' = w.stopAs answer i m newState := by
      intro newState h
      have hm' : ((w.setState i (w.orderedState answer i)).session i).module = some m := by
        rw [World.setState, World.session_modifySession_self]
        exact hm
      rw [exec_orderStop _ _ _ hm', Option.bind_some, World.stopAs_setState] at h
      refine eq_of_exec_tendSession ?_ h
      rw [World.session_stopAs_self, Session.state_stopAs]
      split <;> decide
    rcases World.orderedState_cases hused hcalm with ⟨heq, ho | ho | ho | ho⟩ | ho | ho
    · rw [hset heq, ho] at h
      exact .tended hused (.inl ho) ((within_tendSession i).exec h)
    · rw [hset heq, ho] at h
      exact .tended hused (.inr ho) ((within_tendSession i).exec h)
    · rw [hset heq, ho, exec_transitionFrom_start hm, Option.bind_some] at h
      have hstate : ((w.startOrdered i).session i).state = .starting := by
        rw [World.session_startOrdered_self]
      by_cases hcreate : answer (.pthreadCreate i) = 0
      · rw [if_pos hcreate] at h
        rw [eq_of_exec_tendSession (by rw [World.state_createThread, hstate]; decide) h]
        exact .started m ho hm hcreate
      · rw [if_neg hcreate] at h
        rw [eq_of_exec_tendSession (by rw [hstate]; decide) h]
        exact .startFailed m ho hm hcreate
    · rw [hset heq, ho, exec_transitionFrom_starting, Option.bind_some] at h
      by_cases hcount : pcapSessionSupervisionTransitionIntervals ≤ (w.session i).intervalCounter
      · rw [if_pos hcount] at h
        rw [eq_of_exec_tendSession (by rw [World.state_setState]; decide) h]
        exact .timedOut ho hcount
      · rw [if_neg hcount] at h
        rw [eq_of_exec_tendSession ?_ h]
        · exact .waited ho (Nat.lt_of_not_le hcount)
        · rw [World.session_modifySession_self, ← heq, ho]
          decide
    · rw [ho] at h hstop
      rw [hstop _ h]
      exact .stopped m .terminating (.inl ⟨ho, rfl⟩) hused hm
    · rw [ho] at h hstop
      rw [hstop _ h]
      exact .stopped m .aborting (.inr ⟨ho, rfl⟩) hused hm

end Visit

end DistributorMerger
