import DistributorMerger.Concurrency.Variant
import DistributorMerger.Session.Deeds
import DistributorMerger.Session.Shutdown

/-!
# What visits bring about

How many visits it takes until the supervisor has achieved what it is there for, whatever the other
threads do in between. A client, a merger or a server is found running or is given a thread in one
of thirteen visits. When session handling has been closed, two visits empty a slot.

A capture session whose descriptor was found lost is the exception. Its stopper closes the handle
and keeps the number of the descriptor, so that the descriptor is found lost again, before the
session is started, for as long as the number is not in use.
-/

namespace DistributorMerger

/-- The supervisor visits slot `j`. -/
def Event.visitsSlot (j : Slot) : Event → Bool
  | .visits i _ => decide (i = j)
  | _ => false

theorem Event.visitsSlot_iff {j : Slot} {e : Event} :
    e.visitsSlot j = true ↔ ∃ answer, e = .visits j answer := by
  constructor
  · intro h
    cases e with
    | visits i answer =>
      obtain rfl : i = j := of_decide_eq_true h
      exact ⟨answer, rfl⟩
    | _ => cases h
  · rintro ⟨answer, rfl⟩
    exact decide_eq_true rfl

/-! ## Events beside a session -/

section Events

variable {c c' : System} {e : Event} {w' : World} {i j : Slot} {m : Module}

/-- A session in use is left alone by the events that are neither visits of its slot nor statements
of its thread. -/
theorem EventEffect.unmoved (h : EventEffect c e w') (hused : (c.world.session j).state ≠ .unused)
    (hvisit : e.visitsSlot j = false)
    (hthread : ∀ t z m, e = .runs t z → c.world.threads t ≠ some (j, m)) :
    (c.world.session j).Unmoved (w'.session j) := by
  cases h with
  | opens h => exact h.unmoved hused
  | visits h => exact h.unmoved fun hj ↦ absurd hj.symm (of_decide_eq_false hvisit)
  | runs ht h =>
    refine h.unmoved (fun hj ↦ ?_) hused
    rw [← hj] at ht
    exact hthread _ _ _ rfl ht
  | captures h => exact h.session j
  | closes => exact .refl _

theorem EventEffect.unmoved_of_start (h : EventEffect c e w') (hsound : c.Sound)
    (hstart : (c.world.session j).state = .start) (hvisit : e.visitsSlot j = false) :
    (c.world.session j).Unmoved (w'.session j) := by
  refine h.unmoved (by rw [hstart]; decide) hvisit fun t z m _ ht ↦ ?_
  exact hsound.quiet.lifecycle.idle (.inr hstart) ⟨t, m, ht⟩

theorem EventEffect.handling (h : EventEffect c e w') :
    w'.handlingState = c.world.handlingState ∨ w'.handlingState = .terminating := by
  cases h with
  | opens h => exact .inl h.rest.1
  | visits h =>
    cases h with
    | tended _ _ htends =>
      rw [htends.rest]
      exact .inl rfl
    | stopped =>
      rw [World.stopAs_rest]
      exact .inl rfl
    | _ => exact .inl rfl
  | runs ht h => exact .inl (h.rest (i := 0)).1
  | captures h =>
    rw [h.rest]
    exact .inl rfl
  | closes => exact .inr rfl

theorem System.Sound.closed_step (h : c.Sound) (hstep : c.step e = some c')
    (hclosed : c.world.handlingState ≠ .running) : c'.world.handlingState ≠ .running := by
  rcases (h.step hstep).1.handling with hsame | hterminating
  · exact hsame ▸ hclosed
  · rw [hterminating]
    decide

theorem System.Sound.of_run {es : List Event} (h : c.Sound) (hrun : c.run es = some c') :
    c'.Sound := by
  have hstep : ∀ (c : System) e c', c.Sound → True → c.step e = some c' → c'.Sound :=
    fun _ _ _ hc _ hstep ↦ (hc.step hstep).2
  exact System.run_induction hstep (fun _ _ _ _ _ _ ↦ trivial) h hrun

/-- Once session handling is closed, it stays closed. -/
theorem System.Sound.closed_of_run {es : List Event} (h : c.Sound) (hrun : c.run es = some c')
    (hclosed : c.world.handlingState ≠ .running) :
    c'.Sound ∧ c'.world.handlingState ≠ .running := by
  have hstep : ∀ (c : System) e c', c.Sound ∧ c.world.handlingState ≠ .running → True →
      c.step e = some c' → c'.Sound ∧ c'.world.handlingState ≠ .running :=
    fun _ _ _ hc _ hstep ↦ ⟨(hc.1.step hstep).2, hc.1.closed_step hstep hc.2⟩
  exact System.run_induction hstep (fun _ _ _ _ _ _ ↦ trivial) ⟨h, hclosed⟩ hrun

/-- While session handling is running at the end of a run, it has been running all the time. -/
theorem System.Sound.running_of_run {es : List Event} (h : c.Sound) (hrun : c.run es = some c')
    (hrunning : c'.world.handlingState = .running) : c.world.handlingState = .running := by
  by_contra hclosed
  exact (h.closed_of_run hrun hclosed).2 hrunning

theorem System.Sound.running_steps {es : List Event} (h : c.Sound) (hrun : c.run es = some c')
    (hrunning : c'.world.handlingState = .running) :
    ∀ es₁ e es₂ c₁ c₂, es = es₁ ++ e :: es₂ → c.run es₁ = some c₁ → c₁.step e = some c₂ →
      c₁.world.handlingState = .running := by
  rintro es₁ e es₂ c₁ c₂ rfl hrun₁ hstep
  rw [System.run_append, hrun₁, Option.bind_some] at hrun
  exact (h.of_run hrun₁).running_of_run hrun hrunning

end Events

/-! ## Servers -/

/-- The listening sockets are not supervised. -/
def World.ServersUnsupervised (w : World) : Prop :=
  ∀ j, (w.session j).module = some .server → (w.session j).superviseFd = false

section Servers

variable {c c' : System} {e : Event} {w w' : World} {i : Slot} {m : Module}

theorem World.ServersUnsupervised.place (h : w.ServersUnsupervised) {v : World} {s : Session}
    (hsession : v.session = w.session) (hs : s.module = some .server → s.superviseFd = false) :
    (v.place i s).ServersUnsupervised := by
  intro j hm
  by_cases hj : j = i
  · subst hj
    rw [World.place, World.session_modifySession_self] at hm ⊢
    exact hs hm
  · rw [World.place, World.session_modifySession_of_ne _ hj, hsession] at hm ⊢
    exact h j hm

theorem World.ServersUnsupervised.of_same (h : w.ServersUnsupervised)
    (hsame : ∀ j, (w'.session j).module = (w.session j).module ∧
      (w'.session j).superviseFd = (w.session j).superviseFd) : w'.ServersUnsupervised := by
  intro j hm
  rw [(hsame j).1] at hm
  rw [(hsame j).2]
  exact h j hm

theorem World.ServersUnsupervised.of_unmoved (h : w.ServersUnsupervised)
    (hunmoved : ∀ j, (w.session j).Unmoved (w'.session j)) : w'.ServersUnsupervised := by
  refine h.of_same fun j ↦ ?_
  rw [hunmoved j]
  exact ⟨rfl, rfl⟩

theorem World.ServersUnsupervised.modifySession (h : w.ServersUnsupervised) {v : World}
    {f : Session → Session} (hsession : v.session = w.session)
    (hf : ∀ s, (f s).module = s.module ∧ (f s).superviseFd = s.superviseFd) :
    (v.modifySession i f).ServersUnsupervised := by
  refine h.of_same fun j ↦ ?_
  by_cases hj : j = i
  · rw [hj, World.session_modifySession_self, hsession]
    exact hf _
  · rw [World.session_modifySession_of_ne _ hj, hsession]
    exact ⟨rfl, rfl⟩

theorem OpenEffect.servers (h : OpenEffect w w') (hw : w.ServersUnsupervised) :
    w'.ServersUnsupervised := by
  cases h with
  | full => exact hw
  | refused k m hk => exact hw.place rfl fun _ ↦ rfl
  | plain k s hk hs =>
    refine hw.place rfl fun hm ↦ ?_
    rcases hs with hs | hs | hs <;> rw [hs] at hm <;> cases hm
  | server k fd hk => exact hw.place (v := w.openFd fd .listening) rfl fun _ ↦ rfl
  | livecapture k fd selectable hk => exact hw.place (v := w.openFd fd .capture) rfl nofun

theorem VisitEffect.servers {answer : Query → ℤ} (h : VisitEffect answer i w w')
    (hw : w.ServersUnsupervised) : w'.ServersUnsupervised := by
  have hset : ∀ {v : World} {f : Session → Session}, v.session = w.session →
      (∀ s, (f s).module = s.module ∧ (f s).superviseFd = s.superviseFd) →
      (v.modifySession i f).ServersUnsupervised := hw.modifySession
  cases h with
  | skipped => exact hw
  | tended _ _ htends => exact hw.of_unmoved htends.session
  | started m =>
    have hstarted : (w.startOrdered i).ServersUnsupervised := hset rfl fun _ ↦ ⟨rfl, rfl⟩
    exact hstarted.modifySession (v := { w.startOrdered i with
      threads := Function.update (w.startOrdered i).threads (w.startOrdered i).nextThread
        (some (i, m))
      nextThread := (w.startOrdered i).nextThread + 1 }) rfl fun _ ↦ ⟨rfl, rfl⟩
  | startFailed m => exact hset rfl fun _ ↦ ⟨rfl, rfl⟩
  | waited => exact hset rfl fun _ ↦ ⟨rfl, rfl⟩
  | timedOut => exact hset rfl fun _ ↦ ⟨rfl, rfl⟩
  | stopped m newState =>
    refine hw.of_same fun j ↦ ?_
    by_cases hj : j = i
    · rw [hj, World.session_stopAs_self, Session.stopAs_eq]
      cases m <;> exact ⟨rfl, rfl⟩
    · rw [World.session_stopAs_of_ne _ _ _ _ _ hj]
      exact ⟨rfl, rfl⟩

theorem RunnerStep.servers (h : RunnerStep i m w w') (hw : w.ServersUnsupervised)
    (hm : (w.session i).module = some m) : w'.ServersUnsupervised := by
  have hset : ∀ {v : World} {f : Session → Session}, v.session = w.session →
      (∀ s, (f s).module = s.module ∧ (f s).superviseFd = s.superviseFd) →
      (v.modifySession i f).ServersUnsupervised := hw.modifySession
  cases h with
  | pauses => exact hw
  | lists => exact hw
  | tends h => exact hw.of_unmoved h.session
  | accepts h =>
    cases h with
    | nothing => exact hw
    | rejected fd hfd =>
      refine hw.of_same fun j ↦ ?_
      rw [World.close_session, (World.initClientconnlist_session _).1]
      exact ⟨rfl, rfl⟩
    | accepted k fd hk =>
      exact hw.place (World.initClientconnlist_session (w.openFd fd .connection)).1 nofun
  | notes _ f hf =>
    -- only a file capture changes whether its descriptor is supervised
    intro j hj
    by_cases hji : j = i
    · rw [hji, World.session_modifySession_self, hf] at hj
      cases hj.symm.trans hm
    · rw [World.session_modifySession_of_ne _ hji] at hj ⊢
      exact hw j hj
  | socket _ fd => exact hset (v := w.openFd fd .connection) rfl fun _ ↦ ⟨rfl, rfl⟩
  | dumper =>
    exact hset (v := { w with nextDumper := w.nextDumper + 1 }) rfl fun _ ↦ ⟨rfl, rfl⟩
  | dumpFile _ fd =>
    exact hset (v := { w.openFd fd .file with nextDumper := w.nextDumper + 1 }) rfl
      fun _ ↦ ⟨rfl, rfl⟩
  | closesHandle _ handle => exact hset (v := w.close handle.fd) rfl fun _ ↦ ⟨rfl, rfl⟩
  | opensFile _ fd => exact hset (v := w.openFd fd .file) rfl fun _ ↦ ⟨rfl, rfl⟩
  | _ => exact hset rfl fun _ ↦ ⟨rfl, rfl⟩

theorem EventEffect.servers (h : EventEffect c e w') (hsound : c.Sound)
    (hc : c.world.ServersUnsupervised) : w'.ServersUnsupervised := by
  cases h with
  | opens h => exact h.servers hc
  | visits h => exact h.servers hc
  | runs ht h => exact h.servers hc (hsound.thread_module ht)
  | captures h => exact hc.of_unmoved h.session
  | closes => exact hc

theorem System.servers_of_run {es : List Event} (hrun : System.init.run es = some c) :
    c.Sound ∧ c.world.ServersUnsupervised := by
  have hstep : ∀ (c : System) e c', c.Sound ∧ c.world.ServersUnsupervised → True →
      c.step e = some c' → c'.Sound ∧ c'.world.ServersUnsupervised :=
    fun _ _ _ hc _ hstep ↦ ⟨(hc.1.step hstep).2, (hc.1.step hstep).1.servers hc.1 hc.2⟩
  exact System.run_induction hstep (fun _ _ _ _ _ _ ↦ trivial)
    ⟨System.sound_init, fun _ ↦ nofun⟩ hrun

end Servers

/-! ## Starting again -/

/-- A session that is restarted for as long as session handling is running, and whose descriptor is
not a note about its capture handle. -/
def Module.Resumes (m : Module) : Prop := m = .client ∨ m = .merger ∨ m = .server

/-- How many visits may pass before the session is found running or to be started. -/
def Session.untilStart (s : Session) : ℕ :=
  match s.state with
  | .starting => pcapSessionSupervisionTransitionIntervals - s.intervalCounter + 2
  | .running | .terminate => 1
  | _ => 0

/-- The slot holds a session of the module. -/
structure System.Hosting (c : System) (j : Slot) (m : Module) : Prop where
  /-- The system is sound. -/
  sound : c.Sound
  /-- The listening sockets are not supervised. -/
  servers : c.world.ServersUnsupervised
  /-- The slot is in use. -/
  used : (c.world.session j).state ≠ .unused
  /-- The session has its module. -/
  module : (c.world.session j).module = some m

section Resume

variable {c c' : System} {e : Event} {w' : World} {i j : Slot} {m : Module} {answer : Query → ℤ}

theorem Session.untilStart_le (s : Session) : s.untilStart ≤ 12 := by
  unfold Session.untilStart
  have hle : pcapSessionSupervisionTransitionIntervals - s.intervalCounter ≤ 10 := Nat.sub_le _ _
  split <;> omega

theorem Module.Resumes.persists (h : m.Resumes) {s : Session} {newState : SessionState}
    (hstate : newState ≠ .aborting) : (s.stopAs m newState).state = .start := by
  rw [Session.state_stopAs]
  rcases h with rfl | rfl | rfl <;> simp [Session.stateAfterStop, hstate]

/-- A visit orders no abort while session handling is running. -/
theorem World.orderedState_ne_abort {w : World} (hrunning : w.handlingState = .running)
    (hcalm : (w.session j).state.Calm) : w.orderedState answer j ≠ .abort := by
  rw [World.orderedState]
  split
  · decide
  · rw [if_neg fun h ↦ h.1 hrunning]
    exact hcalm.1

/-- While session handling is running, a visit that does not order a stop leaves the state as it
is. -/
theorem System.Sound.state_of_order (h : c.Sound) (hrunning : c.world.handlingState = .running)
    {state : SessionState} (horder : c.world.orderedState answer j = state)
    (hstate : state ≠ .terminate) : (c.world.session j).state = state := by
  have habort : c.world.orderedState answer j ≠ .abort :=
    World.orderedState_ne_abort hrunning (h.quiet.calm j)
  rw [← World.orderedState_eq_state (by rwa [horder]) habort, horder]

theorem VisitEffect.untilStart (h : VisitEffect answer j c.world w') (hc : c.Hosting j m)
    (hm : m.Resumes) (hrunning : c.world.handlingState = .running)
    (hgoal : ¬ ((c.world.session j).state = .running ∨ (c.world.session j).state = .start)) :
    (w'.session j).state ≠ .unused ∧ (w'.session j).module = some m ∧
      (w'.session j).untilStart + 1 ≤ (c.world.session j).untilStart := by
  cases h with
  | skipped hunused => exact absurd hunused hc.used
  | tended _ horder =>
    rcases horder with horder | horder
    · exact absurd (.inl (hc.sound.state_of_order hrunning horder (by decide))) hgoal
    · exact absurd (hc.sound.state_of_order hrunning horder (by decide)) (hc.sound.notStopped j)
  | started m' horder =>
    exact absurd (.inr (hc.sound.state_of_order hrunning horder (by decide))) hgoal
  | startFailed m' horder =>
    exact absurd (.inr (hc.sound.state_of_order hrunning horder (by decide))) hgoal
  | waited horder hcount =>
    have hstate := hc.sound.state_of_order hrunning horder (by decide)
    rw [World.session_modifySession_self]
    refine ⟨hc.used, hc.module, ?_⟩
    simp only [Session.untilStart, hstate]
    omega
  | timedOut horder hcount =>
    have hstate := hc.sound.state_of_order hrunning horder (by decide)
    rw [World.setState, World.session_modifySession_self]
    refine ⟨show SessionState.terminate ≠ .unused by decide, hc.module, ?_⟩
    simp only [Session.untilStart, hstate]
    omega
  | stopped m' newState horder hused hm' =>
    obtain rfl := Option.some.inj (hc.module.symm.trans hm')
    have hnew : newState ≠ .aborting := by
      rcases horder with ⟨-, rfl⟩ | ⟨horder, -⟩
      · decide
      · exact absurd horder (World.orderedState_ne_abort hrunning (hc.sound.quiet.calm j))
    rw [World.session_stopAs_self]
    refine ⟨by rw [hm.persists hnew]; decide, ((hc.sound.fit j).cleared hc.module _).1, ?_⟩
    · -- it was not to be started, so that it is now closer by one
      have hzero : ((c.world.session j).stopAs m newState).untilStart = 0 := by
        rw [Session.untilStart, hm.persists hnew]
      obtain ⟨hcalm₁, hcalm₂, hcalm₃⟩ := hc.sound.quiet.calm j
      have hstopped := hc.sound.notStopped j
      rw [not_or] at hgoal
      have hpos : 1 ≤ (c.world.session j).untilStart := by
        have hcase := hc.used
        cases hstate : (c.world.session j).state <;>
          simp_all [Session.untilStart]
      omega

/-- An event that is not a visit of the slot leaves the progress of a session as it is, unless its
thread reports that it runs or has ended. -/
theorem EventEffect.reports (h : EventEffect c e w') (hc : c.Hosting j m)
    (hvisit : e.visitsSlot j = false) :
    (w'.session j).module = some m ∧
      ((w'.session j).state = (c.world.session j).state ∧
          (w'.session j).intervalCounter = (c.world.session j).intervalCounter ∨
        ((w'.session j).state = .running ∨ (w'.session j).state = .terminate) ∧
          (c.world.session j).state ≠ .start) := by
  have hunmoved : (c.world.session j).Unmoved (w'.session j) →
      (w'.session j).module = some m ∧
      ((w'.session j).state = (c.world.session j).state ∧
          (w'.session j).intervalCounter = (c.world.session j).intervalCounter ∨
        ((w'.session j).state = .running ∨ (w'.session j).state = .terminate) ∧
          (c.world.session j).state ≠ .start) := fun hunmoved ↦
    ⟨(unmoved_module _ _ hunmoved).trans hc.module,
      .inl ⟨unmoved_state _ _ hunmoved, by rw [hunmoved]⟩⟩
  by_cases hthread : ∃ t z m', e = .runs t z ∧ c.world.threads t = some (j, m')
  · obtain ⟨t, z, m', rfl, ht⟩ := hthread
    cases h with
    | runs ht' h =>
      obtain ⟨rfl, rfl⟩ := Prod.mk.inj (Option.some.inj (ht.symm.trans ht'))
      have hmodule := h.module hc.used
      cases h.effect with
      | writes newState hnew =>
        rw [World.session_modifySession_self] at hmodule ⊢
        exact ⟨hmodule.trans hc.module, .inr ⟨hnew, (hc.sound.started ht).notStart⟩⟩
      | keeps h => exact ⟨hmodule.trans hc.module, .inl ⟨(h.session j).1, (h.session j).2.2⟩⟩
      | accepts h => exact hunmoved (h.unmoved hc.used)
  · exact hunmoved (h.unmoved hc.used hvisit fun t z m' he ht ↦ hthread ⟨t, z, m', he, ht⟩)

theorem EventEffect.untilStart (h : EventEffect c e w') (hc : c.Hosting j m)
    (hvisit : e.visitsSlot j = false) :
    (w'.session j).state ≠ .unused ∧ (w'.session j).module = some m ∧
      (w'.session j).untilStart ≤ (c.world.session j).untilStart := by
  obtain ⟨hmodule, ⟨hstate, hcounter⟩ | ⟨hnew, hnotStart⟩⟩ := h.reports hc hvisit
  · rw [Session.untilStart, Session.untilStart, hstate, hcounter]
    exact ⟨hc.used, hmodule, le_refl _⟩
  · -- a session that reports is not to be started
    have hpos : 1 ≤ (c.world.session j).untilStart := by
      obtain ⟨hcalm₁, hcalm₂, hcalm₃⟩ := hc.sound.quiet.calm j
      have hstopped := hc.sound.notStopped j
      have hused := hc.used
      cases hstate : (c.world.session j).state <;> simp_all [Session.untilStart]
    refine ⟨by rcases hnew with hnew | hnew <;> rw [hnew] <;> decide, hmodule, ?_⟩
    rcases hnew with hnew | hnew <;> rw [Session.untilStart, hnew] <;> exact hpos

theorem System.Hosting.not_lost (hc : c.Hosting j m) (hm : m.Resumes)
    (hstart : (c.world.session j).state = .start) :
    ¬ c.world.Lost answer j := by
  rintro ⟨hsupervised, hfd, -⟩
  have hstartable := (hc.sound.fit j).start hstart m hc.module
  rcases hm with rfl | rfl | rfl
  · rw [hstartable.1] at hfd
    exact absurd hfd (by decide)
  · rw [hstartable.1] at hfd
    exact absurd hfd (by decide)
  · rw [hc.servers j hc.module] at hsupervised
    cases hsupervised

theorem VisitEffect.starts (h : VisitEffect answer j c.world w') (hc : c.Hosting j m)
    (hrunning : c.world.handlingState = .running) (hlost : ¬ c.world.Lost answer j)
    (hstart : (c.world.session j).state = .start) :
    (w'.session j).state = .starting ∧ (answer (.pthreadCreate j) = 0 → w'.HasThread j) := by
  have horder : c.world.orderedState answer j = .start := by
    rw [World.orderedState, if_neg hlost, if_neg fun h ↦ h.1 hrunning, hstart]
  have hother : ∀ {state : SessionState}, c.world.orderedState answer j = state →
      state ≠ .start → False := by
    rintro state rfl hne
    exact hne horder
  cases h with
  | skipped hunused => exact absurd hunused hc.used
  | tended _ h => exact (h.elim (hother · (by decide)) (hother · (by decide))).elim
  | started m' =>
    refine ⟨?_, fun _ ↦ ⟨c.world.nextThread, m', ?_⟩⟩
    · rw [World.state_createThread, World.session_startOrdered_self]
    · rw [World.threads_createThread]
      exact if_pos rfl
  | startFailed m' _ _ hcreate =>
    refine ⟨?_, fun hzero ↦ absurd hzero hcreate⟩
    rw [World.session_startOrdered_self]
  | waited h => exact (hother h (by decide)).elim
  | timedOut h => exact (hother h (by decide)).elim
  | stopped _ _ h => exact (h.elim (hother ·.1 (by decide)) (hother ·.1 (by decide))).elim

/-- What a step brings about while session handling is running: the session is left in its slot, and
a visit that does not find it running or to be started brings it closer to that. -/
theorem System.Hosting.approaches (hm : m.Resumes) (c : System) (e : Event) (c' : System)
    (hc : c.Hosting j m) (hrunning : c.world.handlingState = .running)
    (hstep : c.step e = some c')
    (hgoal : ¬ (e.visitsSlot j = true ∧ c.Hosting j m ∧
      ((c.world.session j).state = .running ∨ (c.world.session j).state = .start))) :
    c'.Hosting j m ∧ (c'.world.session j).untilStart + (if e.visitsSlot j then 1 else 0) ≤
      (c.world.session j).untilStart := by
  obtain ⟨heffect, hsound⟩ := hc.sound.step hstep
  have hservers := heffect.servers hc.sound hc.servers
  by_cases hvisit : e.visitsSlot j = true
  · rw [if_pos hvisit]
    obtain ⟨answer, rfl⟩ := Event.visitsSlot_iff.mp hvisit
    cases heffect with
    | visits heffect =>
      obtain ⟨hused, hmodule, hle⟩ :=
        heffect.untilStart hc hm hrunning fun hfound ↦ hgoal ⟨hvisit, hc, hfound⟩
      exact ⟨⟨hsound, hservers, hused, hmodule⟩, hle⟩
  · rw [if_neg hvisit]
    rw [Bool.not_eq_true] at hvisit
    obtain ⟨hused, hmodule, hle⟩ := heffect.untilStart hc hvisit
    exact ⟨⟨hsound, hservers, hused, hmodule⟩, hle⟩

end Resume

/-- **Every thirteenth visit at the latest finds a session running or starts it.** In every run
while session handling is running, among any thirteen visits of the slot of a client, a merger or a
server, one finds the session running, or finds it to be started and tries to create its thread. -/
theorem session_resumes (es : List Event) (c : System) (hrun : System.init.run es = some c)
    (j : Slot) (m : Module) (hused : (c.world.session j).state ≠ .unused)
    (hmodule : (c.world.session j).module = some m) (hm : m.Resumes) (es' : List Event)
    (c' : System) (hrun' : c.run es' = some c') (hrunning : c'.world.handlingState = .running)
    (hvisits : 13 ≤ es'.countP (Event.visitsSlot j)) :
    ∃ es₁ answer es₂ c₁ c₂, es' = es₁ ++ .visits j answer :: es₂ ∧ c.run es₁ = some c₁ ∧
      c₁.step (.visits j answer) = some c₂ ∧
      ((c₁.world.session j).state = .running ∨
        (c₁.world.session j).state = .start ∧ (c₂.world.session j).state = .starting ∧
          (answer (.pthreadCreate j) = 0 → c₂.world.HasThread j)) := by
  obtain ⟨hsound, hservers⟩ := System.servers_of_run hrun
  have hhosting : c.Hosting j m := ⟨hsound, hservers, hused, hmodule⟩
  have hhandling := hsound.running_steps hrun' hrunning
  have hle := (c.world.session j).untilStart_le
  obtain ⟨es₁, e, es₂, c₁, c₂, hes, hrun₁, hstep, hvisit, hhosting₁, hfound⟩ :=
    exists_tick_of_variant (System.Hosting.approaches hm) hhandling hhosting hrun' (by omega)
  obtain ⟨answer, rfl⟩ := Event.visitsSlot_iff.mp hvisit
  refine ⟨es₁, answer, es₂, c₁, c₂, hes, hrun₁, hstep, hfound.imp id fun hstart ↦ ⟨hstart, ?_⟩⟩
  cases (hhosting₁.sound.step hstep).1 with
  | visits heffect =>
    exact heffect.starts hhosting₁ (hhandling _ _ _ _ _ hes hrun₁ hstep)
      (hhosting₁.not_lost hm hstart) hstart

/-- A client whose thread never runs: after the timeout and the stop the thirteenth visit starts it
again. -/
theorem session_resumes_client :
    ∃ es₁ answer es₂ c c₁ c₂, List.replicate 13 (Event.visits 0 fun _ ↦ 0)
        = es₁ ++ .visits 0 answer :: es₂ ∧
      System.init.run [.opens (.client none) fun _ ↦ 0, .visits 0 fun _ ↦ 0] = some c ∧
      (c.world.session 0).state = .starting ∧ c.run es₁ = some c₁ ∧
      c₁.step (.visits 0 answer) = some c₂ ∧
      (c₁.world.session 0).state = .start ∧ (c₂.world.session 0).state = .starting := by
  let silent : Query → ℤ := fun _ ↦ 0
  have hrun : ((System.init.run [.opens (.client none) silent, .visits 0 silent]).bind fun c ↦
      (c.run (List.replicate 13 (.visits 0 silent))).map fun c' ↦ ((c.world.session 0).state,
        (c.world.session 0).module, c'.world.handlingState))
          = some (.starting, some .client, .running) := by decide +kernel
  have hidle : ∀ n ≤ (List.replicate 13 (Event.visits 0 silent)).length,
      (((System.init.run [.opens (.client none) silent, .visits 0 silent]).bind
        (·.run ((List.replicate 13 (.visits 0 silent)).take n))).all fun c ↦
          (c.world.session 0).state ≠ .running) = true := by decide +kernel
  obtain ⟨c, hrun, hvisits⟩ := Option.bind_eq_some_iff.mp hrun
  obtain ⟨c', hvisits, hend⟩ := Option.map_eq_some_iff.mp hvisits
  obtain ⟨hstate, hend⟩ := Prod.mk.inj hend
  obtain ⟨hmodule, hrunning⟩ := Prod.mk.inj hend
  have hused : (c.world.session 0).state ≠ .unused := by
    rw [hstate]
    nofun
  have hcount : 13 ≤ (List.replicate 13 (Event.visits 0 silent)).countP (Event.visitsSlot 0) := by
    decide
  obtain ⟨es₁, answer, es₂, c₁, c₂, hes, hrun₁, hstep, hfound⟩ := session_resumes _ c hrun 0
    .client hused hmodule (.inl rfl) _ c' hvisits hrunning hcount
  rw [hrun] at hidle
  have hnot : (c₁.world.session 0).state ≠ .running :=
    foldlM_all_of_take (p := fun c : System ↦ (c.world.session 0).state ≠ .running) hidle hes hrun₁
  obtain ⟨hstart, hstarting, -⟩ := hfound.resolve_left hnot
  exact ⟨es₁, answer, es₂, c, c₁, c₂, hes, hrun, hstate, hrun₁, hstep, hstart, hstarting⟩

end DistributorMerger
