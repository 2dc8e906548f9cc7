import DistributorMerger.Session.Holding

/-!
# What is true of the system

Along every run the lifecycle is maintained, the sessions are fit and hold what the kernel has
opened for them, and every thread has a good rest of its runner to execute. From this each event is
known by its effect.
-/

namespace DistributorMerger

/-- What is true of a configuration that can be reached. -/
structure System.Sound (c : System) : Prop where
  /-- No stop is under way. -/
  quiet : Quiet c.world
  /-- The sessions are fit. -/
  fit : ∀ i, (c.world.session i).Fit
  /-- The ledger of descriptors is sound. -/
  ledger : c.world.holdings.Sound
  /-- A slot is given back as soon as its session has stopped. -/
  notStopped : ∀ i, (c.world.session i).state ≠ .stopped
  /-- A thread belongs to a session of its module. -/
  thread_module : ∀ {t i m}, c.world.threads t = some (i, m) →
    (c.world.session i).module = some m
  /-- Threads are numbered in order. -/
  thread_lt : ∀ {t i m}, c.world.threads t = some (i, m) → t < c.world.nextThread
  /-- What a thread has still to execute is good. -/
  pool : ∀ {t i m}, c.world.threads t = some (i, m) →
    (c.pool t).Sat (RunnerRely i) (RunnerStep i m) (fun _ _ ↦ True) c.world

section Steps

variable {c c' : System} {w w' : World} {i : Slot} {m : Module} {t : ℕ}

theorem rely_of_unmoved (h : (w.session i).Unmoved (w'.session i)) :
    RunnerRely i w w' ∧ (w'.session i).module = (w.session i).module :=
  ⟨runnerRely_of_unmoved h, unmoved_module _ _ h⟩

theorem System.Sound.started (h : c.Sound) (ht : c.world.threads t = some (i, m)) :
    c.world.Started i m where
  used := fun hstate ↦ h.quiet.lifecycle.idle (.inl hstate) ⟨t, m, ht⟩
  notStart := fun hstate ↦ h.quiet.lifecycle.idle (.inr hstate) ⟨t, m, ht⟩
  module := h.thread_module ht

theorem System.Sound.of_keeps (h : c.Sound) (hthreads : w'.threads = c.world.threads)
    (hnext : w'.nextThread = c.world.nextThread) (hquiet : Quiet w')
    (haccounts : Accounts c.world w') (hstopped : ∀ j, (w'.session j).state ≠ .stopped)
    (hrely : ∀ t j m, c.world.threads t = some (j, m) → RunnerRely j c.world w' ∧
      (w'.session j).module = (c.world.session j).module) :
    System.Sound { c with world := w' } where
  quiet := hquiet
  fit := haccounts.fit
  ledger := haccounts.step.sound h.ledger
  notStopped := hstopped
  thread_module := by
    intro t j m ht
    have ht : c.world.threads t = some (j, m) := hthreads ▸ ht
    exact (hrely t j m ht).2.trans (h.thread_module ht)
  thread_lt := by
    intro t j m ht
    have ht : c.world.threads t = some (j, m) := hthreads ▸ ht
    exact lt_of_lt_of_eq (h.thread_lt ht) hnext.symm
  pool := by
    intro t j m ht
    have ht : c.world.threads t = some (j, m) := hthreads ▸ ht
    exact (h.pool ht).rely (hrely t j m ht).1

theorem System.Sound.opens (h : c.Sound) (heffect : OpenEffect c.world w') :
    System.Sound { c with world := w' } := by
  have hthreads : w'.threads = c.world.threads ∧ w'.nextThread = c.world.nextThread := by
    cases heffect <;> exact ⟨rfl, rfl⟩
  refine h.of_keeps hthreads.1 hthreads.2 ?_ (heffect.balances h.fit).toAccounts (fun j ↦ ?_)
    fun t j m ht ↦ ?_
  · exact Quiet.stable (i := 0) _ _ heffect.interference h.quiet
  · have hplace : ∀ {w₁ : World} {k : Slot} {s : Session}, w₁.session = c.world.session →
        s.state = .start ∨ s.state = .unused → ((w₁.place k s).session j).state ≠ .stopped := by
      intro w₁ k s hw₁ hs
      by_cases hj : j = k
      · rw [hj, World.place, World.session_modifySession_self]
        rcases hs with hs | hs <;> rw [hs] <;> decide
      · rw [World.place, World.session_modifySession_of_ne _ hj, hw₁]
        exact h.notStopped j
    cases heffect with
    | full => exact h.notStopped j
    | refused k m hk => exact hplace rfl (.inr rfl)
    | plain k s hk hs =>
      exact hplace rfl (.inl (by rcases hs with hs | hs | hs <;> rw [hs] <;> rfl))
    | server k fd hk hfd => exact hplace rfl (.inl rfl)
    | livecapture k fd selectable hk hfd => exact hplace rfl (.inl rfl)
  · exact rely_of_unmoved (heffect.unmoved (h.started ht).used)

theorem System.Sound.handles (h : c.Sound) (hhandles : Handles c.world w') :
    System.Sound { c with world := w' } := by
  have hthreads : w'.threads = c.world.threads := by rw [hhandles.rest]
  have hnext : w'.nextThread = c.world.nextThread := by rw [hhandles.rest]
  have hopen : w'.openFds = c.world.openFds := by rw [hhandles.rest]
  have hkeeps : KeepsLifecycle c.world w' := by
    refine ⟨hthreads, hnext, fun j ↦ ?_⟩
    rw [hhandles.session j]
    exact ⟨rfl, rfl, rfl⟩
  refine h.of_keeps hthreads hnext ?_ ?_ (fun j ↦ ?_) fun _ j _ _ ↦
    rely_of_unmoved (hhandles.session j)
  · exact Quiet.stable (i := 0) _ _ hkeeps.interference h.quiet
  · refine (balances_alike h.fit (fun j ↦ ?_) hopen).toAccounts
    rw [hhandles.session j]
    exact ⟨rfl, rfl, rfl, rfl, rfl⟩
  · rw [unmoved_state _ _ (hhandles.session j)]
    exact h.notStopped j

theorem RunnerEffect.notStopped (h : RunnerEffect i w w') {j : Slot}
    (hj : (w.session j).state ≠ .stopped) : (w'.session j).state ≠ .stopped := by
  cases h with
  | writes newState h =>
    by_cases hji : j = i
    · rw [hji, World.session_modifySession_self]
      rcases h with rfl | rfl <;> simp
    · rw [World.session_modifySession_of_ne w hji]
      exact hj
  | keeps h =>
    rw [(h.session j).1]
    exact hj
  | accepts h =>
    by_cases hused : (w.session j).state = .unused
    · cases h with
      | nothing => exact hj
      | rejected fd hfd =>
        rw [World.close_session, (World.initClientconnlist_session _).1]
        exact hj
      | accepted k fd hk hfd =>
        by_cases hjk : j = k
        · rw [hjk, World.place, World.session_modifySession_self]
          simp [Session.opened]
        · rw [World.place, World.session_modifySession_of_ne _ hjk,
            (World.initClientconnlist_session _).1]
          exact hj
    · rw [unmoved_state _ _ (h.unmoved hused)]
      exact hj

/-- A statement of a runner is a runner step, or a question that changes nothing. -/
theorem System.Sound.next (h : c.Sound) (ht : c.world.threads t = some (i, m)) {z : ℤ}
    {p : SessionProg Unit} (hnext : (c.pool t).next z c.world = some (p, w')) :
    RunnerStep i m c.world w' ∧ p.Sat (RunnerRely i) (RunnerStep i m) (fun _ _ ↦ True) w' := by
  obtain ⟨hG, hrest⟩ := (h.pool ht).step (Prog.step_of_next hnext)
  rcases hG with hG | rfl
  · exact ⟨hG, hrest⟩
  · exact ⟨.pauses _, hrest⟩

theorem System.Sound.runs (h : c.Sound) (ht : c.world.threads t = some (i, m))
    (hstep : RunnerStep i m c.world w') {p : SessionProg Unit}
    (hp : p.Sat (RunnerRely i) (RunnerStep i m) (fun _ _ ↦ True) w') :
    System.Sound ⟨w', Function.update c.pool t p⟩ := by
  have hthread : c.world.HasThread i := ⟨t, m, ht⟩
  have heffect := hstep.effect
  have hmodule : (w'.session i).module = some m := by
    rw [hstep.module (h.started ht).used]
    exact h.thread_module ht
  -- The other threads belong to other slots.
  have hunmoved : ∀ t' j m', c.world.threads t' = some (j, m') → t' ≠ t →
      j ≠ i ∧ (c.world.session j).Unmoved (w'.session j) := by
    intro t' j m' ht' hne
    have hji : j ≠ i := by
      rintro rfl
      have heq := h.quiet.lifecycle.thread_eq ht
      exact hne ((h.quiet.lifecycle.thread_eq ht').symm.trans heq)
    exact ⟨hji, hstep.unmoved hji (h.started ht').used⟩
  refine ⟨?_, (hstep.balances h.fit (h.started ht)).fit,
    (hstep.balances h.fit (h.started ht)).step.sound h.ledger,
    fun j ↦ heffect.notStopped (h.notStopped j), ?_, ?_, ?_⟩
  · exact Quiet.stable (i := 0) _ _ (heffect.interference hthread) h.quiet
  · intro t' j m' ht'
    have ht' : c.world.threads t' = some (j, m') := hstep.threads.1 ▸ ht'
    by_cases hne : t' = t
    · obtain ⟨rfl, rfl⟩ := Prod.mk.inj (Option.some.inj ((hne ▸ ht').symm.trans ht))
      exact hmodule
    · exact (unmoved_module _ _ (hunmoved t' j m' ht' hne).2).trans (h.thread_module ht')
  · intro t' j m' ht'
    have ht' : c.world.threads t' = some (j, m') := hstep.threads.1 ▸ ht'
    exact lt_of_lt_of_eq (h.thread_lt ht') hstep.threads.2.symm
  · intro t' j m' ht'
    have ht' : c.world.threads t' = some (j, m') := hstep.threads.1 ▸ ht'
    by_cases hne : t' = t
    · obtain ⟨rfl, rfl⟩ := Prod.mk.inj (Option.some.inj ((hne ▸ ht').symm.trans ht))
      rw [hne]
      change (Function.update c.pool t p t).Sat _ _ _ _
      rw [Function.update_self]
      exact hp
    · change (Function.update c.pool t p t').Sat _ _ _ _
      rw [Function.update_of_ne hne]
      exact (h.pool ht').rely (runnerRely_of_unmoved (hunmoved t' j m' ht' hne).2)

theorem System.Sound.visitEffect (h : c.Sound) {answer : Query → ℤ} {counted : Bool}
    (hexec : (superviseSession i).exec answer c.world = some (counted, w')) :
    VisitEffect answer i c.world w' :=
  visitEffect_of_exec (h.quiet.calm i) (h.fit i).used hexec

theorem System.Sound.visits_keeps (h : c.Sound) (hthreads : w'.threads = c.world.threads)
    (hnext : w'.nextThread = c.world.nextThread) (hquiet : Quiet w')
    (haccounts : Accounts c.world w')
    (hothers : ∀ j, j ≠ i → (c.world.session j).Unmoved (w'.session j))
    (hi : RunnerRely i c.world w' ∧ (w'.session i).module = (c.world.session i).module)
    (hstopped : (w'.session i).state ≠ .stopped) :
    System.Sound ⟨w', spawned c.world w' c.pool⟩ := by
  rw [spawned_of_eq hthreads]
  refine h.of_keeps hthreads hnext hquiet haccounts (fun j ↦ ?_) fun t j m ht ↦ ?_
  · by_cases hj : j = i
    · exact hj ▸ hstopped
    · rw [unmoved_state _ _ (hothers j hj)]
      exact h.notStopped j
  · by_cases hj : j = i
    · exact hj ▸ hi
    · exact rely_of_unmoved (hothers j hj)

theorem System.Sound.visits_started (h : c.Sound)
    (hquiet : Quiet ((c.world.startOrdered i).createThread i m))
    (haccounts : Accounts c.world ((c.world.startOrdered i).createThread i m))
    (hstart : (c.world.session i).state = .start) (hm : (c.world.session i).module = some m) :
    System.Sound ⟨(c.world.startOrdered i).createThread i m,
      spawned c.world ((c.world.startOrdered i).createThread i m) c.pool⟩ := by
  have hself : ((c.world.startOrdered i).createThread i m).session i = { c.world.session i with
      state := .starting, intervalCounter := 0, thread := c.world.nextThread } := by
    rw [World.session_createThread_self, World.session_startOrdered_self]
    rfl
  have hothers : ∀ j, j ≠ i →
      ((c.world.startOrdered i).createThread i m).session j = c.world.session j := by
    intro j hj
    rw [World.session_createThread_of_ne _ _ hj, World.session_startOrdered_of_ne _ _ hj]
  -- a slot that is to be started has no thread yet
  have hnone : ∀ t j m', c.world.threads t = some (j, m') → j ≠ i ∧ t ≠ c.world.nextThread := by
    intro t j m' ht
    refine ⟨?_, (h.thread_lt ht).ne⟩
    rintro rfl
    exact h.quiet.lifecycle.idle (.inr hstart) ⟨t, m', ht⟩
  -- A thread is the new one, or an old one of another slot.
  have hcases : ∀ {t j m'}, ((c.world.startOrdered i).createThread i m).threads t = some (j, m') →
      t = c.world.nextThread ∧ j = i ∧ m' = m ∨
        c.world.threads t = some (j, m') ∧ j ≠ i ∧ t ≠ c.world.nextThread := by
    intro t j m' ht
    rw [World.threads_createThread] at ht
    split at ht
    · rename_i hnew
      obtain ⟨rfl, rfl⟩ := Prod.mk.inj (Option.some.inj ht)
      exact .inl ⟨hnew, rfl, rfl⟩
    · exact .inr ⟨ht, hnone t j m' ht⟩
  refine ⟨hquiet, haccounts.fit, haccounts.step.sound h.ledger, fun j ↦ ?_, ?_, ?_, ?_⟩
  · -- no session is `STOPPED`
    by_cases hj : j = i
    · subst hj
      change (((c.world.startOrdered j).createThread j m).session j).state ≠ _
      rw [hself]
      nofun
    · change (((c.world.startOrdered i).createThread i m).session j).state ≠ _
      rw [hothers j hj]
      exact h.notStopped j
  · -- threads and modules
    intro t j m' ht
    rcases hcases ht with ⟨-, rfl, rfl⟩ | ⟨ht, hj, -⟩
    · exact (congrArg Session.module hself).trans hm
    · exact (congrArg Session.module (hothers j hj)).trans (h.thread_module ht)
  · -- thread numbers
    intro t j m' ht
    rcases hcases ht with ⟨rfl, -, -⟩ | ⟨ht, -, -⟩
    · exact Nat.lt_succ_self _
    · exact Nat.lt_succ_of_lt (h.thread_lt ht)
  · -- the new thread has its whole runner in front of it, the others go on where they were
    intro t j m' ht
    rcases hcases ht with ⟨rfl, rfl, rfl⟩ | ⟨ht', hj, hne⟩
    · change (spawned _ _ _ _).Sat _ _ _ _
      rw [spawned_of_new (World.threads_nextThread h.thread_lt) ht]
      refine triple_runner m' j _ ?_
      rw [Holds, hself]
      exact (h.fit j).start hstart m' hm
    · change (spawned _ _ _ _).Sat _ _ _ _
      rw [spawned_of_some ht']
      refine (h.pool ht').rely ?_
      rw [RunnerRely, hothers j hj]
      exact ⟨rfl, rfl, rfl⟩

theorem System.Sound.visits_stopped (h : c.Sound) {answer : Query → ℤ} {newState : SessionState}
    (hquiet : Quiet (c.world.stopAs answer i m newState))
    (haccounts : Accounts c.world (c.world.stopAs answer i m newState)) :
    System.Sound ⟨c.world.stopAs answer i m newState,
      spawned c.world (c.world.stopAs answer i m newState) c.pool⟩ := by
  have hothers : ∀ j, j ≠ i →
      (c.world.stopAs answer i m newState).session j = c.world.session j := fun j hj ↦
    World.session_stopAs_of_ne _ _ _ _ _ hj
  have hnext : (c.world.stopAs answer i m newState).nextThread = c.world.nextThread := by
    rw [World.stopAs_rest]
  -- The threads that are left are those of other slots.
  have hcases : ∀ {t j m'}, (c.world.stopAs answer i m newState).threads t = some (j, m') →
      c.world.threads t = some (j, m') ∧ j ≠ i := by
    intro t j m' ht
    rw [World.stopAs_rest] at ht
    change (c.world.joined i).threads t = some (j, m') at ht
    rw [World.threads_joined] at ht
    split at ht
    · cases ht
    · rename_i hjoined
      refine ⟨ht, ?_⟩
      rintro rfl
      have heq := h.quiet.lifecycle.thread_eq ht
      refine hjoined ⟨fun hzero ↦ ?_, heq.symm⟩
      rw [hzero] at heq
      rw [← heq, h.quiet.lifecycle.threads_zero] at ht
      cases ht
  refine ⟨hquiet, haccounts.fit, haccounts.step.sound h.ledger, fun j ↦ ?_, ?_, ?_, ?_⟩
  · -- no session is `STOPPED`
    by_cases hj : j = i
    · subst hj
      change ((c.world.stopAs answer j m newState).session j).state ≠ _
      rw [World.session_stopAs_self, Session.state_stopAs]
      split <;> decide
    · change ((c.world.stopAs answer i m newState).session j).state ≠ _
      rw [hothers j hj]
      exact h.notStopped j
  · -- threads and modules
    intro t j m' ht
    obtain ⟨ht, hj⟩ := hcases ht
    exact (congrArg Session.module (hothers j hj)).trans (h.thread_module ht)
  · -- thread numbers
    intro t j m' ht
    exact lt_of_lt_of_eq (h.thread_lt (hcases ht).1) hnext.symm
  · -- the threads that are left go on where they were
    intro t j m' ht
    obtain ⟨ht, hj⟩ := hcases ht
    change (spawned _ _ _ _).Sat _ _ _ _
    rw [spawned_of_some ht]
    refine (h.pool ht).rely ?_
    rw [RunnerRely, hothers j hj]
    exact ⟨rfl, rfl, rfl⟩

theorem System.Sound.visits (h : c.Sound) {answer : Query → ℤ} (hquiet : Quiet w')
    (heffect : VisitEffect answer i c.world w') :
    System.Sound ⟨w', spawned c.world w' c.pool⟩ := by
  have haccounts := heffect.accounts h.fit
  have hothers : ∀ j, j ≠ i → (c.world.session j).Unmoved (w'.session j) := fun j hj ↦
    heffect.unmoved hj
  cases heffect with
  | skipped hunused =>
    exact h.visits_keeps rfl rfl hquiet haccounts hothers ⟨refl_of (RunnerRely i) _, rfl⟩
      (h.notStopped i)
  | tended hused horder htends =>
    refine h.visits_keeps ?_ ?_ hquiet haccounts hothers (rely_of_unmoved (htends.session i)) ?_
    · rw [htends.rest]
    · rw [htends.rest]
    · rw [unmoved_state _ _ (htends.session i)]
      exact h.notStopped i
  | started m horder hm hcreate =>
    have hstate := World.orderedState_eq_state (by rw [horder]; decide) (by rw [horder]; decide)
    exact h.visits_started hquiet haccounts (hstate.symm.trans horder) hm
  | startFailed m horder hm hcreate =>
    refine h.visits_keeps rfl rfl hquiet haccounts hothers ⟨?_, ?_⟩ ?_
    · rw [RunnerRely, World.session_startOrdered_self]
      exact ⟨rfl, rfl, rfl⟩
    · rw [World.session_startOrdered_self]
    · rw [World.session_startOrdered_self]
      nofun
  | waited horder hcount =>
    refine h.visits_keeps rfl rfl hquiet haccounts hothers ⟨?_, ?_⟩ ?_
    · rw [RunnerRely, World.session_modifySession_self]
      exact ⟨rfl, rfl, rfl⟩
    · rw [World.session_modifySession_self]
    · rw [World.session_modifySession_self]
      exact h.notStopped i
  | timedOut horder hcount =>
    refine h.visits_keeps rfl rfl hquiet haccounts hothers ⟨?_, ?_⟩ ?_
    · rw [RunnerRely, World.setState, World.session_modifySession_self]
      exact ⟨rfl, rfl, rfl⟩
    · rw [World.setState, World.session_modifySession_self]
    · rw [World.state_setState]
      decide
  | stopped m newState horder hused hm => exact h.visits_stopped hquiet haccounts

end Steps

/-! ## Every event -/

section Events

variable {c c' : System} {e : Event}

theorem System.sound_init : System.init.Sound := by
  have hquiet : Quiet World.init := ⟨⟨nofun, rfl, Nat.zero_lt_one, fun _ ⟨_, _, h⟩ ↦ (nomatch h),
    fun _ ↦ Nat.zero_le _⟩, fun _ ↦ ⟨nofun, nofun, nofun⟩⟩
  have hheld : Session.zero.held = ∅ := by decide
  refine ⟨hquiet, fun i ↦ ?_, ⟨fun i ↦ ?_, fun i j _ ↦ ?_, fun i ↦ ?_⟩, fun i ↦ nofun, nofun, nofun,
    nofun⟩
  · exact ⟨fun h ↦ absurd rfl h, fun _ ↦ hheld, nofun, nofun⟩
  · change Session.zero.held ⊆ _
    rw [hheld]
    exact Finset.empty_subset _
  · change Disjoint Session.zero.held _
    rw [hheld]
    exact Finset.disjoint_empty_left _
  · change Session.zero.held.card ≤ 1
    rw [hheld]
    exact Nat.zero_le _

theorem handles_capturePacket (i : Slot) (p : Packet) : (capturePacket i p).Within Handles :=
  (handles_fillBuffer i _).bind fun _ ↦ handles_pcapsessionClientconnPacketHandler i _

/-- What an event does to the world. -/
inductive EventEffect (c : System) : Event → World → Prop
  /-- An open function. -/
  | opens {call : OpenCall} {answer : Query → ℤ} {w' : World} (h : OpenEffect c.world w') :
      EventEffect c (.opens call answer) w'
  /-- A visit. -/
  | visits {i : Slot} {answer : Query → ℤ} {w' : World} (h : VisitEffect answer i c.world w') :
      EventEffect c (.visits i answer) w'
  /-- A statement of a runner. -/
  | runs {t : ℕ} {z : ℤ} {i : Slot} {m : Module} {w' : World}
      (ht : c.world.threads t = some (i, m)) (h : RunnerStep i m c.world w') :
      EventEffect c (.runs t z) w'
  /-- A packet. -/
  | captures {i : Slot} {p : Packet} {answer : Query → ℤ} {w' : World} (h : Handles c.world w') :
      EventEffect c (.captures i p answer) w'
  /-- Session handling is closed. -/
  | closes : EventEffect c .closes { c.world with handlingState := .terminating }

/-- **One event** of a sound system is known by its effect and leaves a sound system. -/
theorem System.Sound.step (h : c.Sound) (hstep : c.step e = some c') :
    EventEffect c e c'.world ∧ c'.Sound := by
  cases e with
  | opens call answer =>
    obtain ⟨⟨r, w'⟩, hexec, rfl⟩ := Option.map_eq_some_iff.mp hstep
    exact ⟨.opens (openEffect_of_exec hexec), h.opens (openEffect_of_exec hexec)⟩
  | visits i answer =>
    obtain ⟨⟨counted, w'⟩, hexec, rfl⟩ := Option.map_eq_some_iff.mp hstep
    have hquiet : Quiet w' := (triple_superviseSession i _ h.quiet).exec hexec
    exact ⟨.visits (h.visitEffect hexec), h.visits hquiet (h.visitEffect hexec)⟩
  | runs t z =>
    obtain ⟨i, m, p, w', ht, hnext, rfl⟩ := System.runs_cases hstep
    obtain ⟨hrunner, hp⟩ := h.next ht hnext
    exact ⟨.runs ht hrunner, h.runs ht hrunner hp⟩
  | captures i p answer =>
    obtain ⟨⟨r, w'⟩, hexec, rfl⟩ := Option.map_eq_some_iff.mp hstep
    have hhandles := (handles_capturePacket i p).exec hexec
    exact ⟨.captures hhandles, h.handles hhandles⟩
  | closes =>
    cases hstep
    have hbalances : Balances c.world { c.world with handlingState := .terminating } :=
      balances_alike h.fit (fun _ ↦ .refl _) rfl
    refine ⟨.closes, h.of_keeps rfl rfl ?_ hbalances.toAccounts h.notStopped
      fun _ j _ _ ↦ ⟨refl_of (RunnerRely j) c.world, rfl⟩⟩
    refine Quiet.stable (i := 0) _ _ (KeepsLifecycle.interference ?_) h.quiet
    exact ⟨rfl, rfl, fun _ ↦ ⟨rfl, rfl, rfl⟩⟩

/-- An event is a step of the ledger of descriptors. -/
theorem EventEffect.ledger {w' : World} (heffect : EventEffect c e w') (h : c.Sound) :
    Holdings.Step c.world.holdings w'.holdings := by
  cases heffect with
  | opens heffect => exact (heffect.balances h.fit).step
  | runs ht hrunner => exact (hrunner.balances h.fit (h.started ht)).step
  | visits heffect => exact (heffect.accounts h.fit).step
  | captures hhandles =>
    refine .keep (fun j ↦ ?_) ?_
    · change (w'.session j).held = (c.world.session j).held
      rw [hhandles.session j]
      rfl
    · change w'.openFds = c.world.openFds
      rw [hhandles.rest]
  | closes => exact .keep (fun _ ↦ rfl) rfl

/-- **Every reachable configuration is sound.** -/
theorem System.sound_of_run {es : List Event} (h : System.init.run es = some c) : c.Sound :=
  System.run_induction (P := fun _ _ ↦ True) (fun _ _ _ hc _ hstep ↦ (hc.step hstep).2)
    (fun _ _ _ _ _ _ ↦ trivial) System.sound_init h

end Events

end DistributorMerger
