import DistributorMerger.Session.Run

/-!
# The lifecycle of sessions

The supervisor's visits are interleaved statement by statement with the runners of all sessions and
with calls of the open functions. A runner may write `RUNNING` or `TERMINATE` to the state of its
session at any point, also while the supervisor is stopping the session; only `pthread_join` puts an
end to that.

The supervisor relies on two things while it visits a slot that is in use: without a thread the slot
is its own, and with a thread only the two states a runner writes can appear in it. That is enough
to show that a stop which is ordered is completed within the visit.
-/

namespace DistributorMerger

/-! ## What the lifecycle maintains -/

/-- The slot has a thread that was created and not yet joined. -/
def World.HasThread (w : World) (i : Slot) : Prop := ∃ t m, w.threads t = some (i, m)

/-- The session is not in the middle of a stop that has been ordered. -/
def SessionState.Calm (s : SessionState) : Prop := s ≠ .abort ∧ s ≠ .terminating ∧ s ≠ .aborting

/-- What holds between any two statements. -/
structure Lifecycle (w : World) : Prop where
  /-- The thread of a session is the one that the session remembers. -/
  thread_eq : ∀ {t i m}, w.threads t = some (i, m) → (w.session i).thread = t
  /-- Zero is not the number of a thread. -/
  threads_zero : w.threads 0 = none
  /-- Zero will not be the number of a thread. -/
  nextThread_pos : 0 < w.nextThread
  /-- A session that is not started has no thread. -/
  idle : ∀ {i}, (w.session i).state = .unused ∨ (w.session i).state = .start → ¬ w.HasThread i
  /-- Transitions are given up in time. -/
  intervalCounter_le : ∀ i,
    (w.session i).intervalCounter ≤ pcapSessionSupervisionTransitionIntervals

/-- Nothing that the lifecycle depends on has changed. -/
structure KeepsLifecycle (w w' : World) : Prop where
  /-- The threads. -/
  threads : w'.threads = w.threads
  /-- The number of the next thread. -/
  nextThread : w'.nextThread = w.nextThread
  /-- The fields of a session that the supervisor decides on. -/
  session : ∀ j, (w'.session j).state = (w.session j).state ∧
    (w'.session j).thread = (w.session j).thread ∧
    (w'.session j).intervalCounter = (w.session j).intervalCounter

instance : Std.Refl KeepsLifecycle := ⟨fun _ ↦ ⟨rfl, rfl, fun _ ↦ ⟨rfl, rfl, rfl⟩⟩⟩

section Keeps

variable {w w' w'' : World} {i : Slot}

theorem KeepsLifecycle.trans (h : KeepsLifecycle w w') (h' : KeepsLifecycle w' w'') :
    KeepsLifecycle w w'' := by
  refine ⟨h'.threads.trans h.threads, h'.nextThread.trans h.nextThread, fun j ↦ ?_⟩
  obtain ⟨hstate, hthread, hcounter⟩ := h.session j
  obtain ⟨hstate', hthread', hcounter'⟩ := h'.session j
  exact ⟨hstate'.trans hstate, hthread'.trans hthread, hcounter'.trans hcounter⟩

theorem keepsLifecycle_modifySession (w : World) (i : Slot) {f : Session → Session}
    (hf : ∀ s, (f s).state = s.state ∧ (f s).thread = s.thread ∧
      (f s).intervalCounter = s.intervalCounter) : KeepsLifecycle w (w.modifySession i f) := by
  refine ⟨rfl, rfl, fun j ↦ ?_⟩
  by_cases hj : j = i
  · rw [hj, World.session_modifySession_self]
    exact hf _
  · rw [World.session_modifySession_of_ne w hj]
    exact ⟨rfl, rfl, rfl⟩

theorem keepsLifecycle_of_tends (h : Tends w w') : KeepsLifecycle w w' := by
  refine ⟨?_, ?_, fun j ↦ ?_⟩
  · rw [h.rest]
  · rw [h.rest]
  · rw [h.session j]
    exact ⟨rfl, rfl, rfl⟩

theorem KeepsLifecycle.hasThread (h : KeepsLifecycle w w') : w'.HasThread i ↔ w.HasThread i := by
  rw [World.HasThread, World.HasThread, h.threads]

theorem KeepsLifecycle.lifecycle (h : KeepsLifecycle w w') (hw : Lifecycle w) : Lifecycle w' where
  thread_eq := by
    intro t i m ht
    rw [h.threads] at ht
    exact (h.session i).2.1.trans (hw.thread_eq ht)
  threads_zero := h.threads ▸ hw.threads_zero
  nextThread_pos := h.nextThread ▸ hw.nextThread_pos
  idle := by
    intro i hi
    rw [(h.session i).1] at hi
    rw [h.hasThread]
    exact hw.idle hi
  intervalCounter_le := by
    intro i
    rw [(h.session i).2.2]
    exact hw.intervalCounter_le i

/-- A change of one session, when its new state, thread and counter fit together. -/
theorem Lifecycle.modifySession (h : Lifecycle w) (i : Slot) {f : Session → Session}
    (hthread : w.HasThread i → (f (w.session i)).thread = (w.session i).thread)
    (hidle : (f (w.session i)).state = .unused ∨ (f (w.session i)).state = .start →
      ¬ w.HasThread i)
    (hcounter : (f (w.session i)).intervalCounter ≤ pcapSessionSupervisionTransitionIntervals) :
    Lifecycle (w.modifySession i f) where
  thread_eq := by
    intro t j m ht
    by_cases hj : j = i
    · subst hj
      rw [World.session_modifySession_self, hthread ⟨t, m, ht⟩]
      exact h.thread_eq ht
    · rw [World.session_modifySession_of_ne w hj]
      exact h.thread_eq ht
  threads_zero := h.threads_zero
  nextThread_pos := h.nextThread_pos
  idle := by
    intro j hj
    by_cases hji : j = i
    · subst hji
      rw [World.session_modifySession_self] at hj
      exact hidle hj
    · rw [World.session_modifySession_of_ne w hji] at hj
      exact h.idle hj
  intervalCounter_le := by
    intro j
    by_cases hj : j = i
    · subst hj
      rw [World.session_modifySession_self]
      exact hcounter
    · rw [World.session_modifySession_of_ne w hj]
      exact h.intervalCounter_le j

end Keeps

/-! ## Runners -/

/-- What one statement of the runner of slot `i` may do. -/
inductive RunnerEffect (i : Slot) (w : World) : World → Prop
  /-- It writes the state of its session. -/
  | writes (newState : SessionState) (h : newState = .running ∨ newState = .terminate) :
      RunnerEffect i w (w.modifySession i ({ · with state := newState }))
  /-- It does something that does not concern the lifecycle. -/
  | keeps {w' : World} (h : KeepsLifecycle w w') : RunnerEffect i w w'
  /-- It accepts a connection. -/
  | accepts {w' : World} (h : AcceptEffect w w') : RunnerEffect i w w'

instance (i : Slot) : Std.Refl (RunnerEffect i) := ⟨fun w ↦ .keeps (refl_of KeepsLifecycle w)⟩

/-! ## Interference -/

section Interference

variable {w w' w'' : World} {i k : Slot} {s : Session}

/-- What the runners and the open functions may do while the supervisor visits slot `i`. -/
structure Interference (i : Slot) (w w' : World) : Prop where
  /-- They maintain the lifecycle. -/
  lifecycle : Lifecycle w → Lifecycle w'
  /-- They order no stop. -/
  calm : ∀ j, (w.session j).state.Calm → (w'.session j).state.Calm
  /-- They create no thread. -/
  hasThread : w'.HasThread i → w.HasThread i
  /-- They write a state only if the slot has a thread, and then one of two. -/
  state : (w.session i).state ≠ .unused → (w'.session i).state = (w.session i).state ∨
    w.HasThread i ∧ ((w'.session i).state = .running ∨ (w'.session i).state = .terminate)
  /-- They leave the rest to the supervisor. -/
  fields : (w.session i).state ≠ .unused → (w'.session i).thread = (w.session i).thread ∧
    (w'.session i).intervalCounter = (w.session i).intervalCounter

theorem Interference.unused (h : Interference i w w') (hw : (w.session i).state ≠ .unused) :
    (w'.session i).state ≠ .unused := by
  rcases h.state hw with hstate | ⟨-, hstate | hstate⟩
  · rw [hstate]
    exact hw
  · rw [hstate]
    decide
  · rw [hstate]
    decide

instance : Std.Refl (Interference i) :=
  ⟨fun _ ↦ ⟨id, fun _ ↦ id, id, fun _ ↦ .inl rfl, fun _ ↦ ⟨rfl, rfl⟩⟩⟩

theorem Interference.trans (h : Interference i w w') (h' : Interference i w' w'') :
    Interference i w w'' where
  lifecycle := h'.lifecycle ∘ h.lifecycle
  calm := fun j ↦ h'.calm j ∘ h.calm j
  hasThread := h.hasThread ∘ h'.hasThread
  state := by
    intro hw
    rcases h'.state (h.unused hw) with hstate | ⟨hthread, hstate⟩
    · rw [hstate]
      exact h.state hw
    · exact .inr ⟨h.hasThread hthread, hstate⟩
  fields := by
    intro hw
    obtain ⟨hthread, hcounter⟩ := h.fields hw
    obtain ⟨hthread', hcounter'⟩ := h'.fields (h.unused hw)
    exact ⟨hthread'.trans hthread, hcounter'.trans hcounter⟩

instance : IsTrans World (Interference i) := ⟨fun _ _ _ ↦ Interference.trans⟩

theorem KeepsLifecycle.interference (h : KeepsLifecycle w w') : Interference i w w' where
  lifecycle := h.lifecycle
  calm := fun j hj ↦ (h.session j).1 ▸ hj
  hasThread := h.hasThread.mp
  state := fun _ ↦ .inl (h.session i).1
  fields := fun _ ↦ (h.session i).2

theorem interference_place (hk : (w.session k).state = .unused)
    (hs : s.state = .start ∨ s.state = .unused) (hcounter : s.intervalCounter = 0) :
    Interference i w (w.place k s) where
  lifecycle := by
    intro hw
    have hthread : ¬ w.HasThread k := hw.idle (.inl hk)
    refine hw.modifySession k (fun h ↦ absurd h hthread) (fun _ ↦ hthread) ?_
    rw [hcounter]
    exact Nat.zero_le _
  calm := by
    intro j hj
    by_cases hjk : j = k
    · subst hjk
      rw [World.place, World.session_modifySession_self]
      rcases hs with hs | hs <;> rw [hs] <;> exact ⟨by decide, by decide, by decide⟩
    · rw [World.place, World.session_modifySession_of_ne w hjk]
      exact hj
  hasThread := id
  state := by
    intro hi
    have hik : i ≠ k := fun h ↦ hi (h ▸ hk)
    rw [World.place, World.session_modifySession_of_ne w hik]
    exact .inl rfl
  fields := by
    intro hi
    have hik : i ≠ k := fun h ↦ hi (h ▸ hk)
    rw [World.place, World.session_modifySession_of_ne w hik]
    exact ⟨rfl, rfl⟩

theorem keepsLifecycle_initClientconnlist (w : World) : KeepsLifecycle w w.initClientconnlist := by
  rw [World.initClientconnlist]
  split
  · exact refl_of KeepsLifecycle w
  · exact ⟨rfl, rfl, fun _ ↦ ⟨rfl, rfl, rfl⟩⟩

theorem OpenEffect.interference (h : OpenEffect w w') : Interference i w w' := by
  have hopen : ∀ fd d, Interference i w (w.openFd fd d) := fun fd d ↦
    KeepsLifecycle.interference ⟨rfl, rfl, fun _ ↦ ⟨rfl, rfl, rfl⟩⟩
  cases h with
  | full => exact refl_of (Interference i) w
  | refused k m hk => exact interference_place hk (.inr rfl) rfl
  | plain k s hk hs =>
    rcases hs with hs | hs | hs <;> rw [hs] <;> exact interference_place hk (.inl rfl) rfl
  | server k fd hk hfd => exact (hopen _ _).trans (interference_place hk (.inl rfl) rfl)
  | livecapture k fd selectable hk hfd =>
    exact (hopen _ _).trans (interference_place hk (.inl rfl) rfl)

theorem AcceptEffect.interference (h : AcceptEffect w w') : Interference i w w' := by
  have hopen : ∀ fd, KeepsLifecycle w (w.openFd fd .connection) := fun fd ↦
    ⟨rfl, rfl, fun _ ↦ ⟨rfl, rfl, rfl⟩⟩
  cases h with
  | nothing => exact refl_of (Interference i) w
  | rejected fd hfd =>
    refine ((hopen fd).interference.trans
      (keepsLifecycle_initClientconnlist _).interference).trans ?_
    exact KeepsLifecycle.interference ⟨rfl, rfl, fun _ ↦ ⟨rfl, rfl, rfl⟩⟩
  | accepted k fd hk hfd =>
    refine ((hopen fd).interference.trans
      (keepsLifecycle_initClientconnlist _).interference).trans ?_
    refine interference_place ?_ (.inl rfl) rfl
    rw [((keepsLifecycle_initClientconnlist _).session k).1]
    exact hk

/-- A runner whose thread has not been joined interferes as the visit expects. -/
theorem RunnerEffect.interference (hthread : w.HasThread k) (h : RunnerEffect k w w') :
    Interference i w w' := by
  cases h with
  | keeps h => exact h.interference
  | accepts h => exact h.interference
  | writes newState h =>
    have hne : newState ≠ .unused ∧ newState ≠ .start ∧ newState.Calm := by
      rcases h with rfl | rfl <;> exact ⟨by decide, by decide, by decide, by decide, by decide⟩
    refine ⟨fun hw ↦ ?_, fun j hj ↦ ?_, id, fun _ ↦ ?_, fun _ ↦ ?_⟩
    · refine hw.modifySession k (fun _ ↦ rfl) ?_ (hw.intervalCounter_le k)
      rintro (hstate | hstate)
      · exact absurd hstate hne.1
      · exact absurd hstate hne.2.1
    · by_cases hjk : j = k
      · subst hjk
        rw [World.session_modifySession_self]
        exact hne.2.2
      · rw [World.session_modifySession_of_ne w hjk]
        exact hj
    · by_cases hik : i = k
      · subst hik
        rw [World.session_modifySession_self]
        exact .inr ⟨hthread, h⟩
      · rw [World.session_modifySession_of_ne w hik]
        exact .inl rfl
    · by_cases hik : i = k
      · subst hik
        rw [World.session_modifySession_self]
        exact ⟨rfl, rfl⟩
      · rw [World.session_modifySession_of_ne w hik]
        exact ⟨rfl, rfl⟩

end Interference

/-! ## Visits -/

section Visit

variable {i : Slot} {w w' : World}

/-- What the supervisor guarantees with each statement. -/
def KeepsInvariant (w w' : World) : Prop := Lifecycle w → Lifecycle w'

instance : Std.Refl KeepsInvariant := ⟨fun _ ↦ id⟩

/-- Between visits, no stop is under way. -/
structure Quiet (w : World) : Prop where
  /-- The lifecycle is maintained. -/
  lifecycle : Lifecycle w
  /-- No session is in the middle of a stop. -/
  calm : ∀ j, (w.session j).state.Calm

/-- During a visit of slot `i`, which is in use, with `φ` said of the session. -/
structure Visiting (i : Slot) (φ : Session → Prop) (w : World) : Prop where
  /-- The lifecycle is maintained. -/
  lifecycle : Lifecycle w
  /-- No other session is in the middle of a stop. -/
  calm : ∀ j, j ≠ i → (w.session j).state.Calm
  /-- The slot is in use. -/
  used : (w.session i).state ≠ .unused
  /-- What is known of the session. -/
  session : φ (w.session i)

/-- The same, when the session has no thread. -/
structure VisitingAlone (i : Slot) (φ : Session → Prop) (w : World) : Prop
    extends Visiting i φ w where
  /-- Nobody else writes the session. -/
  alone : ¬ w.HasThread i

theorem Quiet.stable : Prog.Stable (Interference i) Quiet :=
  fun _ _ hR h ↦ ⟨hR.lifecycle h.lifecycle, fun j ↦ hR.calm j (h.calm j)⟩

/-- It depends on the thread, the counter and the state only, and stays true when a runner
overwrites the state. -/
def Tolerant (φ : Session → Prop) : Prop :=
  ∀ s s' : Session, s'.thread = s.thread → s'.intervalCounter = s.intervalCounter →
    (s'.state = s.state ∨ s'.state = .running ∨ s'.state = .terminate) → φ s → φ s'

/-- It depends on the thread, the counter and the state only. -/
def Supervisory (φ : Session → Prop) : Prop :=
  ∀ s s' : Session, s'.thread = s.thread → s'.intervalCounter = s.intervalCounter →
    s'.state = s.state → φ s → φ s'

theorem Tolerant.supervisory {φ : Session → Prop} (h : Tolerant φ) : Supervisory φ :=
  fun s s' hthread hcounter hstate ↦ h s s' hthread hcounter (.inl hstate)

theorem Visiting.stable {φ : Session → Prop} (hφ : Tolerant φ) :
    Prog.Stable (Interference i) (Visiting i φ) := by
  intro w w' hR h
  obtain ⟨hthread, hcounter⟩ := hR.fields h.used
  refine ⟨hR.lifecycle h.lifecycle, fun j hj ↦ hR.calm j (h.calm j hj), hR.unused h.used, ?_⟩
  refine hφ _ _ hthread hcounter ?_ h.session
  rcases hR.state h.used with hstate | ⟨-, hstate⟩
  · exact .inl hstate
  · exact .inr hstate

/-- Without a thread, what is said of the state stays true as well. -/
theorem VisitingAlone.stable {φ : Session → Prop} (hφ : Supervisory φ) :
    Prog.Stable (Interference i) (VisitingAlone i φ) := by
  intro w w' hR h
  obtain ⟨hthread, hcounter⟩ := hR.fields h.used
  have hstate : (w'.session i).state = (w.session i).state := by
    rcases hR.state h.used with hstate | ⟨hthread, -⟩
    · exact hstate
    · exact absurd hthread h.alone
  exact ⟨⟨hR.lifecycle h.lifecycle, fun j hj ↦ hR.calm j (h.calm j hj), hR.unused h.used,
    hφ _ _ hthread hcounter hstate h.session⟩, fun h' ↦ h.alone (hR.hasThread h')⟩

theorem Visiting.modifySession {φ ψ : Session → Prop} {f : Session → Session}
    (h : Visiting i φ w)
    (hthread : w.HasThread i → (f (w.session i)).thread = (w.session i).thread)
    (hcounter : (f (w.session i)).intervalCounter ≤ pcapSessionSupervisionTransitionIntervals)
    (hused : (f (w.session i)).state ≠ .unused)
    (hstart : (f (w.session i)).state = .start → ¬ w.HasThread i) (hψ : ψ (f (w.session i))) :
    Visiting i ψ (w.modifySession i f) := by
  refine ⟨?_, fun j hj ↦ ?_, ?_, ?_⟩
  · refine h.lifecycle.modifySession i hthread ?_ hcounter
    rintro (hstate | hstate)
    · exact absurd hstate hused
    · exact hstart hstate
  · rw [World.session_modifySession_of_ne w hj]
    exact h.calm j hj
  · rw [World.session_modifySession_self]
    exact hused
  · rw [World.session_modifySession_self]
    exact hψ

theorem Visiting.keeps {φ : Session → Prop} (h : Visiting i φ w) (hw : KeepsLifecycle w w')
    (hφ : φ (w.session i) → φ (w'.session i)) : Visiting i φ w' := by
  refine ⟨hw.lifecycle h.lifecycle, fun j hj ↦ ?_, ?_, hφ h.session⟩
  · rw [(hw.session j).1]
    exact h.calm j hj
  · rw [(hw.session i).1]
    exact h.used

theorem Visiting.quiet (h : Visiting i (·.state.Calm) w) : Quiet w := by
  refine ⟨h.lifecycle, fun j ↦ ?_⟩
  by_cases hj : j = i
  · exact hj ▸ h.session
  · exact h.calm j hj

section Statements

variable {φ ψ : Session → Prop}

theorem triple_changeState (newState : SessionState) (hφ : Tolerant φ) (hψ : Tolerant ψ)
    (hnew : newState ≠ .unused ∧ newState ≠ .start)
    (h : ∀ s, φ s → ψ { s with state := newState }) :
    Prog.Triple (Interference i) KeepsInvariant (Visiting i φ)
      (pcapsessionChangeState i newState) fun _ ↦ Visiting i ψ := by
  have hstep : ∀ w, Visiting i φ w →
      Visiting i ψ (w.modifySession i ({ · with state := newState })) := fun w hw ↦
    hw.modifySession (fun _ ↦ rfl) (hw.lifecycle.intervalCounter_le i) hnew.1
      (fun hstart ↦ absurd hstart hnew.2) (h _ hw.session)
  exact .modify (Visiting.stable hφ) (Visiting.stable hψ)
    (fun w hw _ ↦ (hstep w hw).lifecycle) hstep

theorem triple_changeState_alone (newState : SessionState) (hφ : Supervisory φ)
    (hψ : Supervisory ψ) (hnew : newState ≠ .unused)
    (h : ∀ s, φ s → ψ { s with state := newState }) :
    Prog.Triple (Interference i) KeepsInvariant (VisitingAlone i φ)
      (pcapsessionChangeState i newState) fun _ ↦ VisitingAlone i ψ := by
  have hstep : ∀ w, VisitingAlone i φ w →
      VisitingAlone i ψ (w.modifySession i ({ · with state := newState })) := fun w hw ↦
    ⟨hw.modifySession (fun _ ↦ rfl) (hw.lifecycle.intervalCounter_le i) hnew (fun _ ↦ hw.alone)
      (h _ hw.session), hw.alone⟩
  exact .modify (VisitingAlone.stable hφ) (VisitingAlone.stable hψ)
    (fun w hw _ ↦ (hstep w hw).lifecycle) hstep

theorem triple_resetCounter (hφ : Tolerant φ) (h : ∀ s, φ s → φ { s with intervalCounter := 0 }) :
    Prog.Triple (Interference i) KeepsInvariant (Visiting i φ)
      (modifySession i ({ · with intervalCounter := 0 })) fun _ ↦ Visiting i φ := by
  have hstep : ∀ w, Visiting i φ w →
      Visiting i φ (w.modifySession i ({ · with intervalCounter := 0 })) := fun w hw ↦
    hw.modifySession (fun _ ↦ rfl) (Nat.zero_le _) hw.used
      (fun hstart ↦ hw.lifecycle.idle (.inr hstart)) (h _ hw.session)
  exact .modify (Visiting.stable hφ) (Visiting.stable hφ)
    (fun w hw _ ↦ (hstep w hw).lifecycle) hstep

theorem triple_keeps {α : Type} {p : SessionProg α} (hp : p.Within KeepsLifecycle)
    (hφ : Supervisory φ) :
    Prog.Triple (Interference i) KeepsInvariant (VisitingAlone i φ) p fun _ ↦
      VisitingAlone i φ := by
  refine .frame hp (VisitingAlone.stable hφ) (fun w w' hw h ↦ ?_) fun w w' hw _ ↦ hw.lifecycle
  obtain ⟨hstate, hthread, hcounter⟩ := hw.session i
  exact ⟨h.toVisiting.keeps hw (hφ _ _ hthread hcounter hstate),
    fun h' ↦ h.alone (hw.hasThread.mp h')⟩

end Statements

/-- No stop is being carried out, though one may have been ordered. -/
def NotStopping (s : Session) : Prop := s.state ≠ .terminating ∧ s.state ≠ .aborting

theorem tolerant_notStopping : Tolerant NotStopping := by
  rintro s s' - - (hstate | hstate | hstate) hs
  · rwa [NotStopping, hstate]
  · rw [NotStopping, hstate]
    exact ⟨by decide, by decide⟩
  · rw [NotStopping, hstate]
    exact ⟨by decide, by decide⟩

theorem tolerant_calm : Tolerant (·.state.Calm) := by
  rintro s s' - - (hstate | hstate | hstate) hs
  · rwa [hstate]
  · rw [hstate]
    exact ⟨by decide, by decide, by decide⟩
  · rw [hstate]
    exact ⟨by decide, by decide, by decide⟩

theorem tolerant_true : Tolerant fun _ ↦ True := fun _ _ _ _ _ _ ↦ trivial

theorem triple_orderAbort :
    Prog.Triple (Interference i) KeepsInvariant (Visiting i NotStopping) (orderAbort i) fun _ ↦
      Visiting i NotStopping := by
  have hstable := Visiting.stable (i := i) tolerant_notStopping
  refine (Prog.Triple.read_any _ hstable).bind fun handling ↦ .ite (fun _ ↦ ?_) fun _ ↦ ?_
  · refine (Prog.Triple.read_any _ hstable).bind fun state ↦ .ite (fun _ ↦ ?_) fun _ ↦ ?_
    · refine (Prog.Triple.read_any _ hstable).bind fun state ↦ .ite (fun _ ↦ ?_) fun _ ↦ ?_
      · exact triple_changeState .abort tolerant_notStopping tolerant_notStopping
          ⟨by decide, by decide⟩ fun s _ ↦ ⟨nofun, nofun⟩
      · exact .pure hstable fun _ h ↦ h
    · exact .pure hstable fun _ h ↦ h
  · exact .pure hstable fun _ h ↦ h

theorem triple_checkDescriptor :
    Prog.Triple (Interference i) KeepsInvariant (Visiting i NotStopping) (checkDescriptor i) fun _ ↦
      Visiting i NotStopping := by
  have hstable := Visiting.stable (i := i) tolerant_notStopping
  refine (Prog.Triple.read_any _ hstable).bind fun supervised ↦ .ite (fun _ ↦ ?_) fun _ ↦ ?_
  · refine (Prog.Triple.read_any _ hstable).bind fun fd ↦ .ite (fun _ ↦ ?_) fun _ ↦ ?_
    · refine (Prog.Triple.read_any _ hstable).bind fun fd ↦ ?_
      refine Prog.Triple.bind ((Prog.Triple.query hstable fun _ _ h ↦ h).bind fun events ↦
        Prog.Triple.read_any _ hstable) fun seemsOpen ↦ .ite (fun _ ↦ ?_) fun _ ↦ ?_
      · exact triple_changeState .terminate tolerant_notStopping tolerant_notStopping
          ⟨by decide, by decide⟩ fun s _ ↦ ⟨nofun, nofun⟩
      · exact .pure hstable fun _ h ↦ h
    · exact .pure hstable fun _ h ↦ h
  · exact .pure hstable fun _ h ↦ h

/-! ## Stops -/

section Passages

theorem within_close (fd : ℤ) : (close fd).Within KeepsLifecycle :=
  .modify fun _ ↦ ⟨rfl, rfl, fun _ ↦ ⟨rfl, rfl, rfl⟩⟩

theorem within_modifySession {f : Session → Session}
    (hf : ∀ s, (f s).state = s.state ∧ (f s).thread = s.thread ∧
      (f s).intervalCounter = s.intervalCounter) : (modifySession i f).Within KeepsLifecycle :=
  .modify fun w ↦ keepsLifecycle_modifySession w i hf

theorem within_closePcapHandle : (closePcapHandle i).Within KeepsLifecycle := by
  refine (Prog.Within.read _).bind fun handle ↦ ?_
  cases handle with
  | none => exact .pure ()
  | some handle =>
    exact (within_close _).bind fun _ ↦ .modify fun w ↦
      keepsLifecycle_modifySession w i (f := ({ · with pcapHandle := none })) fun _ ↦
        ⟨rfl, rfl, rfl⟩

theorem within_closePcapDumper : (closePcapDumper i).Within KeepsLifecycle := by
  have hforget : (modifySession i ({ · with pcapDumper := none })).Within KeepsLifecycle :=
    within_modifySession fun _ ↦ ⟨rfl, rfl, rfl⟩
  have hclose : ∀ dumper, (Prog.modify (·.closeDumper dumper) : SessionProg Unit).Within
      KeepsLifecycle := fun _ ↦ .modify fun _ ↦ ⟨rfl, rfl, fun _ ↦ ⟨rfl, rfl, rfl⟩⟩
  refine (Prog.Within.read _).bind fun dumper ↦ ?_
  cases dumper with
  | none => exact hforget
  | some dumper =>
    refine (within_iotestsFdOpen _ _).bind fun seemsOpen ↦ ?_
    refine .ite ?_ hforget
    refine (within_iotestsFdOpen _ _).bind fun seemsOpen ↦ ?_
    exact .ite ((hclose _).bind fun _ ↦ hforget.bind fun _ ↦ hforget)
      (hforget.bind fun _ ↦ hforget)

theorem within_closeOpenFd : (closeOpenFd i).Within KeepsLifecycle := by
  have hclear : (modifySession i ({ · with fd := 0 })).Within KeepsLifecycle :=
    within_modifySession fun _ ↦ ⟨rfl, rfl, rfl⟩
  refine (Prog.Within.read _).bind fun fd ↦ .ite ?_ hclear
  refine (within_iotestsFdOpen _ _).bind fun seemsOpen ↦ ?_
  exact .ite ((within_close _).bind fun _ ↦ hclear) hclear

theorem within_closeMonitor : (closeMonitor i).Within KeepsLifecycle := by
  refine (Prog.Within.read _).bind fun monitor ↦ ?_
  cases monitor with
  | none => exact .pure ()
  | some monitor =>
    exact within_modifySession (f := ({ · with monitor := none })) fun _ ↦ ⟨rfl, rfl, rfl⟩

end Passages

theorem supervisory_true : Supervisory fun _ ↦ True := tolerant_true.supervisory

theorem triple_restartUnlessAborting :
    Prog.Triple (Interference i) KeepsInvariant (VisitingAlone i fun _ ↦ True)
      (restartUnlessAborting i) fun _ ↦ VisitingAlone i (·.state.Calm) := by
  refine (Prog.Triple.read_any _ (VisitingAlone.stable supervisory_true)).bind fun state ↦
    .ite (fun _ ↦ ?_) fun _ ↦ ?_
  · exact triple_changeState_alone .stopped supervisory_true tolerant_calm.supervisory (by decide)
      fun _ _ ↦ ⟨nofun, nofun, nofun⟩
  · exact triple_changeState_alone .start supervisory_true tolerant_calm.supervisory (by decide)
      fun _ _ ↦ ⟨nofun, nofun, nofun⟩

/-- A stopper leaves its session stopped or to be restarted. -/
theorem triple_stopper (m : Module) :
    Prog.Triple (Interference i) KeepsInvariant (VisitingAlone i fun _ ↦ True)
      (stopper m i) fun _ ↦ VisitingAlone i (·.state.Calm) := by
  have hkeeps : ∀ {α : Type} {p : SessionProg α}, p.Within KeepsLifecycle →
      Prog.Triple (Interference i) KeepsInvariant (VisitingAlone i fun _ ↦ True) p fun _ ↦
        VisitingAlone i fun _ ↦ True := fun hp ↦ triple_keeps hp supervisory_true
  have hstop : ∀ newState, newState = .stopped ∨ newState = .start →
      Prog.Triple (Interference i) KeepsInvariant (VisitingAlone i fun _ ↦ True)
        (pcapsessionChangeState i newState) fun _ ↦ VisitingAlone i (·.state.Calm) := by
    rintro newState (rfl | rfl)
    · exact triple_changeState_alone _ supervisory_true tolerant_calm.supervisory (by decide)
        fun _ _ ↦ ⟨nofun, nofun, nofun⟩
    · exact triple_changeState_alone _ supervisory_true tolerant_calm.supervisory (by decide)
        fun _ _ ↦ ⟨nofun, nofun, nofun⟩
  cases m with
  | client =>
    refine (hkeeps within_closePcapHandle).bind fun _ ↦ (hkeeps within_closeOpenFd).bind fun _ ↦ ?_
    exact (hkeeps within_closeMonitor).bind fun _ ↦ triple_restartUnlessAborting
  | clientconn =>
    refine (hkeeps (.modify (f := (·.unlist i)) fun _ ↦ ?_)).bind fun _ ↦ ?_
    · exact ⟨rfl, rfl, fun _ ↦ ⟨rfl, rfl, rfl⟩⟩
    refine (hkeeps within_closePcapDumper).bind fun _ ↦ ?_
    refine (hkeeps within_closePcapHandle).bind fun _ ↦ (hkeeps within_closeOpenFd).bind fun _ ↦ ?_
    exact (hkeeps within_closeMonitor).bind fun _ ↦ hstop _ (.inl rfl)
  | merger =>
    refine (hkeeps within_closePcapDumper).bind fun _ ↦ ?_
    refine (hkeeps within_closePcapHandle).bind fun _ ↦ (hkeeps within_closeOpenFd).bind fun _ ↦ ?_
    refine (hkeeps (.read _)).bind fun fd ↦ .ite (fun _ ↦ ?_) fun _ ↦ ?_
    · refine (hkeeps (within_close _)).bind fun _ ↦
        (hkeeps (within_modifySession ?_)).bind fun _ ↦ ?_
      · exact fun _ ↦ ⟨rfl, rfl, rfl⟩
      exact (hkeeps within_closeMonitor).bind fun _ ↦ triple_restartUnlessAborting
    · exact (hkeeps within_closeMonitor).bind fun _ ↦ triple_restartUnlessAborting
  | server =>
    refine (hkeeps (.read _)).bind fun fd ↦ .ite (fun _ ↦ ?_) fun _ ↦ triple_restartUnlessAborting
    refine (hkeeps (within_close _)).bind fun _ ↦ (hkeeps (within_modifySession ?_)).bind fun _ ↦ ?_
    · exact fun _ ↦ ⟨rfl, rfl, rfl⟩
    exact triple_restartUnlessAborting
  | livecapture =>
    refine (hkeeps within_closePcapHandle).bind fun _ ↦ ?_
    exact (hkeeps within_closeMonitor).bind fun _ ↦ triple_restartUnlessAborting
  | filecapture =>
    refine (hkeeps within_closePcapHandle).bind fun _ ↦ ?_
    refine (hkeeps within_closeMonitor).bind fun _ ↦ (hkeeps (.read _)).bind fun state ↦ ?_
    refine .ite (fun _ ↦ hstop _ (.inl rfl)) fun _ ↦ (hkeeps (.read _)).bind fun iterations ↦ ?_
    exact .ite (fun _ ↦ hstop _ (.inl rfl)) fun _ ↦ hstop _ (.inr rfl)

theorem visitingAlone_joinThread {t : ℕ} (h : Visiting i (fun s ↦ s.thread = t ∧ t ≠ 0) w) :
    VisitingAlone i (fun _ ↦ True) (w.joinThread t) := by
  -- the threads that are left were there before
  have hsub : ∀ {t' x}, (w.joinThread t).threads t' = some x → w.threads t' = some x ∧ t' ≠ t := by
    intro t' x hx
    rw [World.threads_joinThread] at hx
    split at hx
    · cases hx
    · exact ⟨hx, ‹_›⟩
  refine ⟨⟨⟨fun hx ↦ h.lifecycle.thread_eq (hsub hx).1, ?_, h.lifecycle.nextThread_pos, ?_,
    h.lifecycle.intervalCounter_le⟩, h.calm, h.used, trivial⟩, ?_⟩
  · exact (Function.update_of_ne h.session.2.symm _ _).trans h.lifecycle.threads_zero
  · rintro j hj ⟨t', m, hx⟩
    exact h.lifecycle.idle hj ⟨t', m, (hsub hx).1⟩
  · rintro ⟨t', m, hx⟩
    obtain ⟨hx, hne⟩ := hsub hx
    exact hne ((h.lifecycle.thread_eq hx).symm.trans h.session.1)

/-- A session that is stopped for good gives its slot back. -/
theorem triple_releaseSlot :
    Prog.Triple (Interference i) KeepsInvariant (VisitingAlone i (·.state.Calm))
      (do
        if (← readSession i (·.state)) = .stopped then
          pcapsessionChangeState i .unused) fun _ ↦ Quiet := by
  have hstable := VisitingAlone.stable (i := i) tolerant_calm.supervisory
  have hstep : ∀ w, VisitingAlone i (·.state.Calm) w →
      Quiet (w.modifySession i ({ · with state := .unused })) := by
    intro w h
    refine ⟨h.lifecycle.modifySession i (fun _ ↦ rfl) (fun _ ↦ h.alone)
      (h.lifecycle.intervalCounter_le i), fun j ↦ ?_⟩
    by_cases hj : j = i
    · subst hj
      rw [World.session_modifySession_self]
      exact ⟨nofun, nofun, nofun⟩
    · rw [World.session_modifySession_of_ne w hj]
      exact h.calm j hj
  refine (Prog.Triple.read_any _ hstable).bind fun state ↦ .ite (fun _ ↦ ?_) fun _ ↦ ?_
  · exact .modify hstable Quiet.stable (fun w h _ ↦ (hstep w h).lifecycle) hstep
  · exact .pure hstable fun w h ↦ h.toVisiting.quiet

theorem triple_stopAndRelease :
    Prog.Triple (Interference i) KeepsInvariant (VisitingAlone i fun _ ↦ True) (stopAndRelease i)
      fun _ ↦ Quiet := by
  refine (Prog.Triple.read_any _ (VisitingAlone.stable supervisory_true)).bind fun m ↦ ?_
  cases m with
  | none => exact Prog.Triple.stuck.bind fun _ ↦ triple_releaseSlot
  | some m => exact (triple_stopper m).bind fun _ ↦ triple_releaseSlot

/-- `pcapsession_stop`, once the stop has been ordered. -/
theorem triple_pcapsessionStop :
    Prog.Triple (Interference i) KeepsInvariant (Visiting i fun _ ↦ True) (pcapsessionStop i)
      fun _ ↦ Quiet := by
  have hthread : ∀ t, Tolerant fun s ↦ s.thread = t := by
    rintro t s s' hthread - - rfl
    exact hthread
  have hthread' : ∀ t, Tolerant fun s ↦ s.thread = t ∧ t ≠ 0 := by
    rintro t s s' hthread - - ⟨rfl, ht⟩
    exact ⟨hthread, ht⟩
  refine (Prog.Triple.read (Visiting.stable tolerant_true)
    (fun t ↦ Visiting.stable (hthread t)) fun w h ↦ ⟨h.lifecycle, h.calm, h.used, rfl⟩).bind
      fun t ↦ .ite (fun ht ↦ ?_) fun ht ↦ ?_
  · -- The thread is cancelled, joined and forgotten.
    have hcancel : ∀ w, KeepsLifecycle w (w.cancelThread t) := fun w ↦
      ⟨rfl, rfl, fun _ ↦ ⟨rfl, rfl, rfl⟩⟩
    refine Prog.Triple.bind (Prog.Triple.modify (Visiting.stable (hthread t))
      (Visiting.stable (hthread' t)) (fun w _ ↦ (hcancel w).lifecycle) fun w h ↦ ?_) fun _ ↦ ?_
    · have h' := h.keeps (hcancel w) id
      exact ⟨h'.lifecycle, h'.calm, h'.used, h'.session, ht⟩
    refine Prog.Triple.bind (Prog.Triple.modify (Visiting.stable (hthread' t))
      (VisitingAlone.stable supervisory_true)
      (fun w h _ ↦ (visitingAlone_joinThread h).lifecycle) fun w h ↦ visitingAlone_joinThread h)
      fun _ ↦ ?_
    have hforget : ∀ w, VisitingAlone i (fun _ ↦ True) w →
        VisitingAlone i (fun _ ↦ True) (w.modifySession i ({ · with thread := 0 })) := fun w h ↦
      ⟨h.modifySession (fun h' ↦ absurd h' h.alone) (h.lifecycle.intervalCounter_le i) h.used
        (fun _ ↦ h.alone) trivial, h.alone⟩
    exact Prog.Triple.bind (Prog.Triple.modify (VisitingAlone.stable supervisory_true)
      (VisitingAlone.stable supervisory_true) (fun w h _ ↦ (hforget w h).lifecycle) hforget)
      fun _ ↦ triple_stopAndRelease
  · refine Prog.Triple.pre triple_stopAndRelease fun w h ↦
      ⟨⟨h.lifecycle, h.calm, h.used, trivial⟩, ?_⟩
    rintro ⟨t', m, hx⟩
    -- no thread is on record, and number 0 is no thread
    have ht' : t' = 0 := (h.lifecycle.thread_eq hx).symm.trans (h.session.trans (not_not.mp ht))
    rw [ht', h.lifecycle.threads_zero] at hx
    cases hx

theorem triple_orderStop (newState : SessionState)
    (hnew : newState ≠ .unused ∧ newState ≠ .start) :
    Prog.Triple (Interference i) KeepsInvariant (Visiting i fun _ ↦ True) (orderStop i newState)
      fun _ ↦ Quiet := by
  refine (triple_changeState newState tolerant_true tolerant_true hnew fun _ _ ↦ trivial).bind
    fun _ ↦ ?_
  exact (triple_resetCounter tolerant_true fun _ _ ↦ trivial).bind fun _ ↦ triple_pcapsessionStop

/-! ## Starts and transitions -/

theorem visiting_createThread {m : Module} (h : VisitingAlone i (·.state = .starting) w) :
    Visiting i (·.state.Calm) (w.createThread i m) := by
  have hsession : ∀ j, ((w.createThread i m).session j).state = (w.session j).state ∧
      ((w.createThread i m).session j).intervalCounter = (w.session j).intervalCounter ∧
      (j ≠ i → ((w.createThread i m).session j).thread = (w.session j).thread) := by
    intro j
    by_cases hj : j = i
    · subst hj
      rw [World.createThread, World.session_modifySession_self]
      exact ⟨rfl, rfl, fun hj ↦ absurd rfl hj⟩
    · rw [World.createThread, World.session_modifySession_of_ne _ hj]
      exact ⟨rfl, rfl, fun _ ↦ rfl⟩
  -- the new thread is the only one of its slot
  have hnone : ∀ {t m'}, w.threads t ≠ some (i, m') := fun {t m'} ht ↦ h.alone ⟨t, m', ht⟩
  refine ⟨⟨?_, ?_, Nat.succ_pos _, ?_, ?_⟩, fun j hj ↦ ?_, ?_, ?_⟩
  · intro t j m' ht
    rw [World.threads_createThread] at ht
    split at ht
    · rename_i ht'
      cases ht
      rw [ht', World.createThread, World.session_modifySession_self]
    · have hj : j ≠ i := fun hj ↦ hnone (hj ▸ ht)
      rw [(hsession j).2.2 hj]
      exact h.lifecycle.thread_eq ht
  · rw [World.threads_createThread, if_neg (Nat.ne_of_lt h.lifecycle.nextThread_pos)]
    exact h.lifecycle.threads_zero
  · rintro j hj ⟨t, m', ht⟩
    rw [(hsession j).1] at hj
    rw [World.threads_createThread] at ht
    split at ht
    · cases ht
      rw [h.session] at hj
      rcases hj with hj | hj <;> cases hj
    · exact h.lifecycle.idle hj ⟨t, m', ht⟩
  · intro j
    rw [(hsession j).2.1]
    exact h.lifecycle.intervalCounter_le j
  · rw [(hsession j).1]
    exact h.calm j hj
  · rw [(hsession i).1]
    exact h.used
  · rw [(hsession i).1, h.session]
    exact ⟨nofun, nofun, nofun⟩

theorem supervisory_state (s₀ : SessionState) : Supervisory (·.state = s₀) := by
  rintro s s' - - hstate rfl
  exact hstate

theorem VisitingAlone.calm_of_starting (h : VisitingAlone i (·.state = .starting) w) :
    Visiting i (·.state.Calm) w := by
  refine ⟨h.lifecycle, h.calm, h.used, ?_⟩
  rw [h.session]
  exact ⟨nofun, nofun, nofun⟩

theorem triple_pcapsessionStart :
    Prog.Triple (Interference i) KeepsInvariant (VisitingAlone i (·.state = .starting))
      (pcapsessionStart i) fun _ ↦ Visiting i (·.state.Calm) := by
  have hstable := VisitingAlone.stable (i := i) (supervisory_state .starting)
  have hcalm := Visiting.stable (i := i) tolerant_calm
  refine .read_bind .starting hstable (fun w h ↦ h.session) ?_
  refine Prog.Triple.bind (M := fun _ ↦ Visiting i (·.state.Calm)) ?_ fun _ ↦
    .pure hcalm fun _ h ↦ h
  refine (Prog.Triple.query hstable fun _ _ h ↦ h).bind fun result ↦ ?_
  refine (Prog.Triple.read_any _ hstable).bind fun m ↦ ?_
  cases m with
  | none => exact Prog.Triple.stuck.bind fun _ ↦ .pure hcalm fun _ h ↦ h
  | some m =>
    refine .ite (fun _ ↦ ?_) fun _ ↦ ?_
    · exact (Prog.Triple.modify hstable hcalm (fun w h _ ↦ (visiting_createThread h).lifecycle)
        fun w h ↦ visiting_createThread h).bind fun _ ↦ .pure hcalm fun _ h ↦ h
    · exact .pure hstable fun w h ↦ h.calm_of_starting

theorem triple_countInterval {timedOut : SessionProg Unit}
    (h : Prog.Triple (Interference i) KeepsInvariant (Visiting i (·.state.Calm)) timedOut fun _ ↦
      Visiting i (·.state.Calm)) :
    Prog.Triple (Interference i) KeepsInvariant (Visiting i (·.state.Calm))
      (countInterval i timedOut) fun _ ↦ Visiting i (·.state.Calm) := by
  have hcounter : ∀ n, Tolerant fun s ↦ s.state.Calm ∧ s.intervalCounter = n := by
    rintro n s s' hthread hcounter hstate ⟨hs, rfl⟩
    exact ⟨tolerant_calm s s' hthread hcounter hstate hs, hcounter⟩
  refine (Prog.Triple.read (Visiting.stable tolerant_calm) (fun n ↦ Visiting.stable (hcounter n))
    fun w h ↦ ⟨h.lifecycle, h.calm, h.used, h.session, rfl⟩).bind fun n ↦
      .ite (fun _ ↦ ?_) fun hn ↦ ?_
  · exact h.pre fun w h ↦ ⟨h.lifecycle, h.calm, h.used, h.session.1⟩
  · have hstep : ∀ w, Visiting i (fun s ↦ s.state.Calm ∧ s.intervalCounter = n) w →
        Visiting i (·.state.Calm)
          (w.modifySession i fun s ↦ { s with intervalCounter := s.intervalCounter + 1 }) := by
      intro w h
      refine h.modifySession (fun _ ↦ rfl) ?_ h.used
        (fun hstart ↦ h.lifecycle.idle (.inr hstart)) h.session.1
      rw [h.session.2]
      exact Nat.lt_of_not_ge hn
    exact .modify (Visiting.stable (hcounter n)) (Visiting.stable tolerant_calm)
      (fun w h _ ↦ (hstep w h).lifecycle) hstep

/-- What the supervisor knows when it has read a state to make a transition from. -/
structure Transition (i : Slot) (state : SessionState) (w : World) : Prop
    extends Visiting i NotStopping w where
  /-- The slot was in use. -/
  ne_unused : state ≠ .unused
  /-- No stop was being carried out. -/
  notStopping : state ≠ .terminating ∧ state ≠ .aborting
  /-- Unless an abort was ordered, no stop is under way. -/
  calm_session : state ≠ .abort → (w.session i).state.Calm
  /-- A session to be started has no thread. -/
  alone : state = .start → ¬ w.HasThread i ∧ (w.session i).state = .start

theorem Transition.stable (state : SessionState) :
    Prog.Stable (Interference i) (Transition i state) := by
  intro w w' hR h
  refine ⟨Visiting.stable tolerant_notStopping w w' hR h.toVisiting, h.ne_unused, h.notStopping,
    fun hstate ↦ hR.calm i (h.calm_session hstate), fun hstate ↦ ?_⟩
  obtain ⟨halone, hstart⟩ := h.alone hstate
  refine ⟨fun h' ↦ halone (hR.hasThread h'), ?_⟩
  rcases hR.state h.used with hsame | ⟨hthread, -⟩
  · exact hsame.trans hstart
  · exact absurd hthread halone

theorem triple_readTransition :
    Prog.Triple (Interference i) KeepsInvariant (Visiting i NotStopping)
      (readSession i (·.state)) (Transition i) := by
  refine .read (Visiting.stable tolerant_notStopping) Transition.stable fun w h ↦ ?_
  refine ⟨h, h.used, h.session, fun hstate ↦ ⟨hstate, h.session⟩, fun hstate ↦ ⟨?_, hstate⟩⟩
  exact h.lifecycle.idle (.inr hstate)

theorem Transition.toCalm {state : SessionState} (h : Transition i state w)
    (hstate : state ≠ .abort) :
    Visiting i (·.state.Calm) w := ⟨h.lifecycle, h.calm, h.used, h.calm_session hstate⟩

theorem triple_pcapsessionTransitionSession :
    Prog.Triple (Interference i) KeepsInvariant (Visiting i NotStopping)
      (pcapsessionTransitionSession i) fun _ ↦ Quiet := by
  have hcalm := Visiting.stable (i := i) tolerant_calm
  refine triple_readTransition.bind fun state ↦ ?_
  cases state with
  | unused => exact fun w h ↦ absurd rfl h.ne_unused
  | terminating => exact fun w h ↦ absurd rfl h.notStopping.1
  | aborting => exact fun w h ↦ absurd rfl h.notStopping.2
  | stopped => exact .pure (Transition.stable _) fun w h ↦ (h.toCalm nofun).quiet
  | running => exact .pure (Transition.stable _) fun w h ↦ (h.toCalm nofun).quiet
  | start =>
    refine Prog.Triple.pre (A := VisitingAlone i (·.state = .start)) ?_ fun w h ↦
      ⟨⟨h.lifecycle, h.calm, h.used, (h.alone rfl).2⟩, (h.alone rfl).1⟩
    refine (triple_changeState_alone .starting (supervisory_state _) (supervisory_state _)
      (by decide) fun _ _ ↦ rfl).bind fun _ ↦ ?_
    have hreset : ∀ w, VisitingAlone i (·.state = .starting) w →
      VisitingAlone i (·.state = .starting)
        (w.modifySession i ({ · with intervalCounter := 0 })) := fun w h ↦
      ⟨h.modifySession (fun _ ↦ rfl) (Nat.zero_le _) h.used (fun _ ↦ h.alone) h.session, h.alone⟩
    refine Prog.Triple.bind (Prog.Triple.modify (VisitingAlone.stable (supervisory_state _))
      (VisitingAlone.stable (supervisory_state _)) (fun w h _ ↦ (hreset w h).lifecycle) hreset)
      fun _ ↦ ?_
    exact triple_pcapsessionStart.bind fun _ ↦ .pure hcalm fun w h ↦ h.quiet
  | starting =>
    refine Prog.Triple.weaken (triple_countInterval ?_) (fun w h ↦ h.toCalm nofun) fun _ w h ↦
      h.quiet
    exact triple_changeState .terminate tolerant_calm tolerant_calm ⟨by decide, by decide⟩
      fun _ _ ↦ ⟨nofun, nofun, nofun⟩
  | terminate =>
    exact (triple_orderStop .terminating ⟨by decide, by decide⟩).pre fun w h ↦
      ⟨h.lifecycle, h.calm, h.used, trivial⟩
  | abort =>
    exact (triple_orderStop .aborting ⟨by decide, by decide⟩).pre fun w h ↦
      ⟨h.lifecycle, h.calm, h.used, trivial⟩

/-- **A visit completes the stop it orders**, whatever runners and open functions do meanwhile. -/
theorem triple_superviseSession (i : Slot) :
    Prog.Triple (Interference i) KeepsInvariant Quiet (superviseSession i) fun _ ↦ Quiet := by
  have hused : ∀ state : SessionState, Prog.Stable (Interference i) fun w ↦
      Quiet w ∧ (state ≠ .unused → (w.session i).state ≠ .unused) := fun state w w' hR h ↦
    ⟨Quiet.stable w w' hR h.1, fun hstate ↦ hR.unused (h.2 hstate)⟩
  refine (Prog.Triple.read Quiet.stable hused fun w h ↦ ⟨h, id⟩).bind fun state ↦
    .ite (fun _ ↦ ?_) fun hstate ↦ ?_
  · exact .pure (hused state) fun w h ↦ h.1
  · refine Prog.Triple.pre (A := Visiting i NotStopping) ?_ fun w h ↦
      ⟨h.1.lifecycle, fun j _ ↦ h.1.calm j, h.2 hstate, (h.1.calm i).2⟩
    refine triple_orderAbort.bind fun _ ↦ triple_checkDescriptor.bind fun _ ↦ ?_
    refine triple_pcapsessionTransitionSession.bind fun _ ↦ ?_
    have htend : ∀ {α : Type} {p : SessionProg α}, p.Within Tends →
        Prog.Triple (Interference i) KeepsInvariant Quiet p fun _ ↦ Quiet := by
      intro α p hp
      refine .frame hp Quiet.stable (fun w w' hw h ↦ ?_) fun w w' hw _ ↦ ?_
      · have hw := keepsLifecycle_of_tends hw
        exact ⟨hw.lifecycle h.lifecycle, fun j ↦ (hw.session j).1 ▸ h.calm j⟩
      · exact (keepsLifecycle_of_tends hw).lifecycle
    refine (Prog.Triple.read_any _ Quiet.stable).bind fun state ↦ .ite (fun _ ↦ ?_) fun _ ↦ ?_
    · refine (htend (within_flushIdleDumper i)).bind fun _ ↦ ?_
      exact (htend (within_superviseMonitor i)).bind fun _ ↦ .pure Quiet.stable fun _ h ↦ h
    · exact .pure Quiet.stable fun _ h ↦ h

end Visit

/-! ## Every interleaving -/

/-- The world, and what is left of the visit that the supervisor is making. -/
structure Supervised where
  /-- The world. -/
  world : World
  /-- The rest of the visit. -/
  visit : SessionProg Bool

/-- Before the first visit. -/
def Supervised.init : Supervised := ⟨World.init, .ret false⟩

/-- A step of the lifecycle. -/
inductive LifecycleStep : Supervised → Supervised → Prop
  /-- An open function is called. -/
  | opens {w w' : World} {p : SessionProg Bool} (c : OpenCall) (answer : Query → ℤ)
      (r : Option Slot) (h : c.prog.exec answer w = some (r, w')) : LifecycleStep ⟨w, p⟩ ⟨w', p⟩
  /-- A thread that has not been joined executes a statement of its runner. -/
  | runs {w w' : World} {p : SessionProg Bool} (i : Slot) (hthread : w.HasThread i)
      (h : RunnerEffect i w w') : LifecycleStep ⟨w, p⟩ ⟨w', p⟩
  /-- Session handling is closed. -/
  | closes {w : World} {p : SessionProg Bool} :
      LifecycleStep ⟨w, p⟩ ⟨{ w with handlingState := .terminating }, p⟩
  /-- The supervisor begins a visit when it has finished one. -/
  | visits {w : World} {counted : Bool} (i : Slot) :
      LifecycleStep ⟨w, .ret counted⟩ ⟨w, superviseSession i⟩
  /-- The supervisor executes a statement of the visit. -/
  | supervises {w w' : World} {p p' : SessionProg Bool} (h : Prog.Step p w p' w') :
      LifecycleStep ⟨w, p⟩ ⟨w', p'⟩

/-- What is true of a configuration that can be reached. -/
structure Supervised.Sound (c : Supervised) : Prop where
  /-- The lifecycle is maintained. -/
  lifecycle : Lifecycle c.world
  /-- The visit comes to a quiet end. -/
  visit : ∃ i, c.visit.Sat (Interference i) KeepsInvariant (fun _ ↦ Quiet) c.world

theorem Supervised.Sound.quiet {w : World} {counted : Bool}
    (h : Supervised.Sound ⟨w, .ret counted⟩) : Quiet w := by
  obtain ⟨i, hsat⟩ := h.visit
  exact hsat.ret

theorem Supervised.sound_init : Supervised.init.Sound := by
  have hlifecycle : Lifecycle World.init :=
    ⟨nofun, rfl, Nat.zero_lt_one, fun _ ⟨_, _, h⟩ ↦ (nomatch h), fun _ ↦ Nat.zero_le _⟩
  refine ⟨hlifecycle, 0, fun w hR ↦ ?_⟩
  exact Quiet.stable _ _ hR ⟨hlifecycle, fun _ ↦ ⟨nofun, nofun, nofun⟩⟩

theorem LifecycleStep.sound {c c' : Supervised} (hstep : LifecycleStep c c') (h : c.Sound) :
    c'.Sound := by
  -- What interferes with the visit leaves the rest of it sound.
  have henv : ∀ {w w' : World} {p : SessionProg Bool}, (∀ i, Interference i w w') →
      Supervised.Sound ⟨w, p⟩ → Supervised.Sound ⟨w', p⟩ := by
    intro w w' p hR h
    obtain ⟨i, hsat⟩ := h.visit
    exact ⟨(hR i).lifecycle h.lifecycle, i, hsat.rely (hR i)⟩
  cases hstep with
  | opens c answer r hexec => exact henv (fun i ↦ (openEffect_of_exec hexec).interference) h
  | runs i hthread heffect => exact henv (fun j ↦ heffect.interference hthread) h
  | closes =>
    refine henv (fun i ↦ ?_) h
    exact KeepsLifecycle.interference ⟨rfl, rfl, fun _ ↦ ⟨rfl, rfl, rfl⟩⟩
  | visits i => exact ⟨h.lifecycle, i, triple_superviseSession i _ h.quiet⟩
  | supervises hstep =>
    obtain ⟨i, hsat⟩ := h.visit
    obtain ⟨hG, hrest⟩ := hsat.step hstep
    refine ⟨?_, i, hrest⟩
    rcases hG with hG | hsame
    · exact hG h.lifecycle
    · exact hsame ▸ h.lifecycle

theorem Supervised.sound_of_reaches {c : Supervised}
    (h : Relation.ReflTransGen LifecycleStep Supervised.init c) : c.Sound := by
  induction h with
  | refl => exact Supervised.sound_init
  | tail _ hstep ih => exact hstep.sound ih

theorem reaches_exec {w w' : World} {p : SessionProg Bool} {answer : Query → ℤ} {counted : Bool}
    (h : p.exec answer w = some (counted, w')) :
    Relation.ReflTransGen LifecycleStep ⟨w, p⟩ ⟨w', .ret counted⟩ :=
  Prog.exec_induction (motive := fun p w p' w' ↦
    Relation.ReflTransGen LifecycleStep ⟨w, p⟩ ⟨w', p'⟩) (fun _ _ ↦ .refl)
    (fun hstep hrest ↦ .head (.supervises hstep) hrest) p h

/-- **The lifecycle invariant.** In every interleaving of open functions, visits and runners, a slot
has at most one thread that is not joined, and none when it is unused or about to be started; the
interval counter stays within its bound; and between two visits no session is in the middle of an
ordered stop. -/
theorem lifecycle_invariant (c : Supervised)
    (h : Relation.ReflTransGen LifecycleStep Supervised.init c) :
    (∀ i t t' m m', c.world.threads t = some (i, m) → c.world.threads t' = some (i, m') →
      t = t') ∧
    (∀ i, (c.world.session i).state = .unused ∨ (c.world.session i).state = .start →
      ∀ t m, c.world.threads t ≠ some (i, m)) ∧
    (∀ i, (c.world.session i).intervalCounter ≤ pcapSessionSupervisionTransitionIntervals) ∧
    (∀ counted, c.visit = .ret counted → ∀ i, (c.world.session i).state ≠ .abort ∧
      (c.world.session i).state ≠ .terminating ∧ (c.world.session i).state ≠ .aborting) := by
  have hsound := Supervised.sound_of_reaches h
  refine ⟨fun i t t' m m' ht ht' ↦ ?_, fun i hi t m ht ↦ ?_, hsound.lifecycle.intervalCounter_le,
    fun counted hret ↦ ?_⟩
  · exact (hsound.lifecycle.thread_eq ht).symm.trans (hsound.lifecycle.thread_eq ht')
  · exact hsound.lifecycle.idle hi ⟨t, m, ht⟩
  · obtain ⟨w, p⟩ := c
    cases hret
    exact hsound.quiet.calm

/-- A client session is opened, and the supervisor begins to visit it. -/
theorem lifecycle_invariant_started_client :
    ∃ w : World, (w.session 0).state = .starting ∧ (w.session 0).thread = 1 ∧
      w.threads 1 = some (0, .client) ∧ ∀ t m, w.threads t = some (0, m) → t = 1 := by
  have hexec : ((pcapsessionClientOpen none).exec (fun _ ↦ 0) World.init).bind (fun x ↦
      ((superviseSession 0).exec (fun _ ↦ 0) x.2).map fun y ↦
        ((y.2.session 0).state, (y.2.session 0).thread, y.2.threads 1))
      = some (.starting, 1, some (0, .client)) := by decide
  obtain ⟨⟨r, w₁⟩, hopen, hvisit⟩ := Option.bind_eq_some_iff.mp hexec
  obtain ⟨⟨counted, w⟩, hvisit, hw⟩ := Option.map_eq_some_iff.mp hvisit
  obtain ⟨hstate, hthread, hthreads⟩ : (w.session 0).state = .starting ∧
      (w.session 0).thread = 1 ∧ w.threads 1 = some (0, .client) := by simpa using hw
  have hreach : Relation.ReflTransGen LifecycleStep Supervised.init ⟨w, .ret counted⟩ :=
    (Relation.ReflTransGen.refl.tail (.opens (.client none) _ r hopen)).tail (.visits 0)
      |>.trans (reaches_exec hvisit)
  refine ⟨w, hstate, hthread, hthreads, fun t m ht ↦ ?_⟩
  exact (lifecycle_invariant ⟨w, .ret counted⟩ hreach).1 0 t 1 m .client ht hthreads

end DistributorMerger
