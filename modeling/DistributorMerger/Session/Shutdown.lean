import DistributorMerger.Session.Reachable

/-!
# Shutting down

Once session handling has been closed, a visit orders every session to abort. The look at the
session's descriptor comes after that order and overrides it: a session whose descriptor is lost at
that moment is terminated, and its stopper restarts it.

Unless that happens every visit empties its slot, and after a round of visits the supervisor
returns.
-/

namespace DistributorMerger

/-- The stopper restarts the session when it is terminated, not aborted. -/
def Session.Restarts (s : Session) : Prop :=
  s.module ≠ some .clientconn ∧ (s.module = some .filecapture → s.iterations ≠ 0)

/-- A visit during the shutdown finds the descriptor of a session lost that its stopper restarts. -/
def System.RestartsInShutdown (c : System) (i : Slot) (answer : Query → ℤ) : Prop :=
  c.world.Lost answer i ∧ (c.world.session i).Restarts

section Visit

variable {answer : Query → ℤ} {w : World} {i : Slot} {m : Module} {newState : SessionState}

theorem exec_superviseSession_stops (hused : (w.session i).state ≠ .unused)
    (hm : (w.session i).module = some m)
    (horder : w.orderedState answer i = .terminate ∧ newState = .terminating ∨
      w.orderedState answer i = .abort ∧ newState = .aborting) :
    (superviseSession i).exec answer w = some (true, w.stopAs answer i m newState) := by
  have hm' : ((w.setState i (w.orderedState answer i)).session i).module = some m := by
    rw [World.setState, World.session_modifySession_self]
    exact hm
  have hstop : (transitionFrom i (w.orderedState answer i)).exec answer
      (w.setState i (w.orderedState answer i)) = some ((), w.stopAs answer i m newState) := by
    have hexec := exec_orderStop answer i _ hm' newState
    rw [World.stopAs_setState] at hexec
    rcases horder with ⟨horder, rfl⟩ | ⟨horder, rfl⟩
    · rw [horder] at hexec ⊢
      exact hexec
    · rw [horder] at hexec ⊢
      exact hexec
  have hstate : ((w.stopAs answer i m newState).session i).state ≠ .running := by
    rw [World.session_stopAs_self, Session.state_stopAs]
    split <;> decide
  rw [exec_superviseSession hused, exec_transition, hstop, Option.bind_some, tendSession,
    Prog.exec_bind, exec_readSession, Option.bind_some, if_neg hstate]
  rfl

theorem exec_superviseSession_unused (h : (w.session i).state = .unused) :
    (superviseSession i).exec answer w = some (false, w) := by
  rw [superviseSession, Prog.exec_bind, exec_readSession, Option.bind_some, if_pos h]
  rfl

/-- A terminated session is restarted, or has no reason to be. -/
theorem Session.state_stopAs_of_terminating {s : Session} (hm : s.module = some m) :
    (s.stopAs m .terminating).state = .unused ↔ ¬ s.Restarts := by
  rw [Session.state_stopAs, Session.Restarts, hm]
  cases m with
  | filecapture =>
    by_cases h : s.iterations = 0
    · simp [Session.stateAfterStop, h]
    · simp [Session.stateAfterStop, h]
  | _ => simp [Session.stateAfterStop]

/-- **A visit during the shutdown** returns, and empties the slot unless it finds the descriptor of
a session lost that is then restarted. -/
theorem System.Sound.shutdown_visit {c : System} (h : c.Sound)
    (hclosed : c.world.handlingState ≠ .running) (hused : (c.world.session i).state ≠ .unused)
    (answer : Query → ℤ) :
    ∃ w', (superviseSession i).exec answer c.world = some (true, w') ∧
      w'.handlingState = c.world.handlingState ∧
      (∀ j, j ≠ i → w'.session j = c.world.session j) ∧
      ((w'.session i).state = .unused ↔ ¬ c.RestartsInShutdown i answer) ∧
      (w'.session i).state ≠ .starting := by
  obtain ⟨m, hm⟩ := (h.fit i).used hused
  have hnotStarting : ∀ newState,
      ((c.world.stopAs answer i m newState).session i).state ≠ .starting := by
    intro newState
    rw [World.session_stopAs_self, Session.state_stopAs]
    split <;> decide
  by_cases hlost : c.world.Lost answer i
  · have horder : c.world.orderedState answer i = .terminate := by
      rw [World.orderedState, if_pos hlost]
    refine ⟨_, exec_superviseSession_stops hused hm (.inl ⟨horder, rfl⟩), ?_,
      fun j hj ↦ World.session_stopAs_of_ne _ _ _ _ _ hj, ?_, hnotStarting _⟩
    · rw [World.stopAs_rest]
    · rw [World.session_stopAs_self, Session.state_stopAs_of_terminating hm,
        System.RestartsInShutdown]
      exact ⟨fun hnot hboth ↦ hnot hboth.2, fun hnot hrestarts ↦ hnot ⟨hlost, hrestarts⟩⟩
  · have horder : c.world.orderedState answer i = .abort := by
      rw [World.orderedState, if_neg hlost, if_pos]
      exact ⟨hclosed, h.notStopped i, (h.quiet.calm i).2.2⟩
    refine ⟨_, exec_superviseSession_stops hused hm (.inr ⟨horder, rfl⟩), ?_,
      fun j hj ↦ World.session_stopAs_of_ne _ _ _ _ _ hj, ?_, hnotStarting _⟩
    · rw [World.stopAs_rest]
    · rw [World.session_stopAs_self, Session.state_stopAs_aborting]
      exact ⟨fun _ hboth ↦ hlost hboth.1, fun _ ↦ rfl⟩

theorem exec_superviseSessions_unused (h : ∀ j, (w.session j).state = .unused)
    (slots : List Slot) : (superviseSessions slots).exec answer w = some (0, w) := by
  induction slots with
  | nil => rfl
  | cons i slots ih =>
    rw [superviseSessions, Prog.exec_bind, exec_superviseSession_unused (h i), Option.bind_some,
      Prog.exec_bind, ih]
    rfl

/-- The supervisor returns when all slots are empty and session handling has been closed. -/
theorem exec_pcapsessionSupervisionRun (h : ∀ j, (w.session j).state = .unused)
    (hclosed : w.handlingState ≠ .running) (rounds : ℕ) :
    (pcapsessionSupervisionRun (rounds + 1)).exec answer w
      = some (true, { w with handlingState := .stopped }) := by
  rw [pcapsessionSupervisionRun, Prog.exec_bind, exec_superviseSessions_unused h, Option.bind_some,
    Prog.exec_bind, Prog.exec_read, Option.bind_some, if_pos ⟨rfl, hclosed⟩]
  rfl

end Visit

/-! ## A round of visits -/

section Round

variable {c : System}

/-- A round of visits, each with its own answers. -/
def visitsOf (answers : Slot → Query → ℤ) (slots : List Slot) : List Event :=
  slots.map fun i ↦ .visits i (answers i)

/-- A round of visits in which no session is restarted empties the slots it visits, and keeps empty
those that are. -/
theorem System.Sound.shutdown_round (answers : Slot → Query → ℤ) (slots : List Slot) (h : c.Sound)
    (hclosed : c.world.handlingState ≠ .running)
    (hundisturbed : ∀ es₁ i answer es₂ c₁, visitsOf answers slots = es₁ ++ .visits i answer :: es₂ →
      c.run es₁ = some c₁ → ¬ c₁.RestartsInShutdown i answer) :
    ∃ c', c.run (visitsOf answers slots) = some c' ∧ c'.world.handlingState ≠ .running ∧
      ∀ j, j ∈ slots ∨ (c.world.session j).state = .unused →
        (c'.world.session j).state = .unused := by
  induction slots generalizing c with
  | nil => exact ⟨c, rfl, hclosed, fun j hj ↦ hj.resolve_left List.not_mem_nil⟩
  | cons i slots ih =>
    -- The first visit, which leaves slot `i` empty and the others as they are.
    obtain ⟨w', hexec, hhandling, hothers, hi⟩ : ∃ w', (∃ counted,
        (superviseSession i).exec (answers i) c.world = some (counted, w')) ∧
        w'.handlingState = c.world.handlingState ∧
        (∀ j, j ≠ i → w'.session j = c.world.session j) ∧ (w'.session i).state = .unused := by
      by_cases hused : (c.world.session i).state = .unused
      · exact ⟨c.world, ⟨false, exec_superviseSession_unused hused⟩, rfl, fun _ _ ↦ rfl, hused⟩
      · obtain ⟨w', hexec, hhandling, hothers, hi, -⟩ := h.shutdown_visit hclosed hused (answers i)
        exact ⟨w', ⟨true, hexec⟩, hhandling, hothers,
          hi.mpr (hundisturbed [] i (answers i) (visitsOf answers slots) c rfl rfl)⟩
    obtain ⟨counted, hexec⟩ := hexec
    have hstep : c.step (.visits i (answers i)) = some ⟨w', spawned c.world w' c.pool⟩ := by
      rw [System.step, hexec]
      rfl
    obtain ⟨c', hrun, hclosed', hunused⟩ := ih (h.step hstep).2 (hhandling ▸ hclosed)
      fun es₁ j answer es₂ c₁ hes hrun₁ ↦ by
        refine hundisturbed (.visits i (answers i) :: es₁) j answer es₂ c₁ ?_ ?_
        · rw [visitsOf, List.map_cons, ← visitsOf, hes, List.cons_append]
        · rw [System.run_cons, hstep]
          exact hrun₁
    refine ⟨c', ?_, hclosed', fun j hj ↦ hunused j ?_⟩
    · rw [visitsOf, List.map_cons, System.run_cons, hstep]
      exact hrun
    · by_cases hji : j = i
      · exact .inr (hji ▸ hi)
      · refine hj.imp (fun hmem ↦ (List.mem_cons.mp hmem).resolve_left hji) fun hunused ↦ ?_
        change (w'.session j).state = .unused
        rw [hothers j hji]
        exact hunused

/-- **A shutdown restarts a session exactly when a visit finds its descriptor lost** and its stopper
restarts what is terminated. When no visit of a round does, all slots are empty after it and the
supervisor returns. -/
theorem shutdown_never_restarts (es : List Event) (c : System)
    (hrun : System.init.run es = some c) (hclosed : c.world.handlingState ≠ .running) :
    (∀ i answer, (c.world.session i).state ≠ .unused → (c.world.session i).state ≠ .stopped →
      ∃ c', c.step (.visits i answer) = some c' ∧
        ((c'.world.session i).state = .unused ∧ (c'.world.session i).state ≠ .start ∧
            (c'.world.session i).state ≠ .starting
          ↔ ¬ c.RestartsInShutdown i answer)) ∧
    (∀ answers, (∀ es₁ i answer es₂ c₁,
        visitsOf answers (List.finRange pcapSessionMaxSessions) = es₁ ++ .visits i answer :: es₂ →
        c.run es₁ = some c₁ → ¬ c₁.RestartsInShutdown i answer) →
      ∃ c', c.run (visitsOf answers (List.finRange pcapSessionMaxSessions)) = some c' ∧
        (∀ j, (c'.world.session j).state = .unused) ∧
        ∀ answer, (pcapsessionSupervisionRun 1).exec answer c'.world
          = some (true, { c'.world with handlingState := .stopped })) := by
  have hsound := System.sound_of_run hrun
  refine ⟨fun i answer hused _ ↦ ?_, fun answers hundisturbed ↦ ?_⟩
  · obtain ⟨w', hexec, -, -, hiff, -⟩ := hsound.shutdown_visit hclosed hused answer
    refine ⟨⟨w', spawned c.world w' c.pool⟩, ?_, ?_⟩
    · rw [System.step, hexec]
      rfl
    · rw [← hiff]
      refine ⟨fun hboth ↦ hboth.1, fun hunused ↦ ?_⟩
      change (w'.session i).state = .unused ∧ _
      rw [hunused]
      exact ⟨rfl, by decide, by decide⟩
  · obtain ⟨c', hround, hclosed', hunused⟩ := hsound.shutdown_round answers _ hclosed hundisturbed
    have hall : ∀ j, (c'.world.session j).state = .unused := fun j ↦
      hunused j (.inl (List.mem_finRange j))
    exact ⟨c', hround, hall, fun answer ↦ exec_pcapsessionSupervisionRun hall hclosed' 0⟩

/-- A client that waits for its connection when session handling is closed. -/
theorem shutdown_never_restarts_client :
    ∃ es c c', System.init.run es = some c ∧ c.world.handlingState ≠ .running ∧
      (c.world.session 0).state = .running ∧ c.step (.visits 0 fun _ ↦ 0) = some c' ∧
      (c'.world.session 0).state = .unused := by
  let silent : Query → ℤ := fun _ ↦ 0
  let es : List Event := [.opens (.client none) silent, .visits 0 silent, .runs 1 0, .runs 1 3,
    .runs 1 0, .closes]
  have hrun : ((System.init.run es).map fun c ↦ (c.world.handlingState,
      (c.world.session 0).state, decide (c.world.Lost silent 0)))
        = some (.terminating, .running, false) := by decide +kernel
  obtain ⟨c, hrun, hend⟩ := Option.map_eq_some_iff.mp hrun
  obtain ⟨hhandling, hend⟩ := Prod.mk.inj hend
  obtain ⟨hstate, hlost⟩ := Prod.mk.inj hend
  have hclosed : c.world.handlingState ≠ .running := by
    rw [hhandling]
    nofun
  have hused : (c.world.session 0).state ≠ .unused ∧ (c.world.session 0).state ≠ .stopped := by
    rw [hstate]
    exact ⟨nofun, nofun⟩
  obtain ⟨c', hstep, hiff⟩ := (shutdown_never_restarts es c hrun hclosed).1 0 silent hused.1 hused.2
  refine ⟨es, c, c', hrun, hclosed, hstate, hstep, (hiff.mpr ?_).1⟩
  exact fun hrestarts ↦ of_decide_eq_false hlost hrestarts.1

/-- A client that waits for its connection when session handling is closed, and whose descriptor is
found lost by the visit that should abort it, is restarted. -/
theorem shutdown_restarts_client :
    ∃ es c answer c', System.init.run es = some c ∧ c.world.handlingState ≠ .running ∧
      (c.world.session 0).state = .running ∧ c.step (.visits 0 answer) = some c' ∧
      (c'.world.session 0).state = .start := by
  let lost : Query → ℤ := fun q ↦ if q = .pollSupervised 0 then 1 else 0
  let es : List Event := [.opens (.client none) lost, .visits 0 lost, .runs 1 0, .runs 1 3,
    .runs 1 0, .closes]
  have hrun : ((System.init.run es).bind fun c ↦ (c.step (.visits 0 lost)).map fun c' ↦
      (c.world.handlingState, (c.world.session 0).state, (c'.world.session 0).state))
        = some (.terminating, .running, .start) := by decide +kernel
  obtain ⟨c, hrun, hstep⟩ := Option.bind_eq_some_iff.mp hrun
  obtain ⟨c', hstep, hend⟩ := Option.map_eq_some_iff.mp hstep
  obtain ⟨hhandling, hend⟩ := Prod.mk.inj hend
  obtain ⟨hstate, hstate'⟩ := Prod.mk.inj hend
  refine ⟨es, c, lost, c', hrun, ?_, hstate, hstep, hstate'⟩
  rw [hhandling]
  nofun

end Round

end DistributorMerger
