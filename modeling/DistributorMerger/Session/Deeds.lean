import DistributorMerger.Session.Machine

/-!
# What is true of the machine

Every action of the machine does one of a few deeds: an effect of an open function, a step of the
supervisor, a step of a runner or of a packet handler, or the order to shut down. The deeds keep the
world orderly, and each party's deeds are what the others rely on. What a deed preserves is
therefore true in every state that the machine can reach.
-/

namespace DistributorMerger

/-! ## Deeds beside a visit -/

section Beside

variable {i k : Slot} {w w' : World} {m : Module} {t : ℕ}

/-- A deed that touches no session in use, cancels no thread and lists no client. -/
theorem beside_of_unmoved (hinterference : Interference i w w')
    (hhandling : w.handlingState ≠ .running → w'.handlingState ≠ .running)
    (hcancelled : w'.cancelled = w.cancelled)
    (hunmoved : (w.session i).state ≠ .unused → (w.session i).Unmoved (w'.session i))
    (hlist : w'.clientconnlist i = w.clientconnlist i ∨ w'.clientconnlist i = none) :
    Beside i w w' where
  toInterference := hinterference
  handling := hhandling
  cancelled := hcancelled
  module := fun hused ↦ unmoved_module _ _ (hunmoved hused)
  unmoved := fun hused _ ↦ hunmoved hused
  unlisted := by
    intro _ _ hnone
    rcases hlist with hsame | hlist
    · exact hsame.trans hnone
    · exact hlist

theorem OpenEffect.rest (h : OpenEffect w w') : w'.handlingState = w.handlingState ∧
    w'.cancelled = w.cancelled ∧ w'.clientconnlist = w.clientconnlist ∧ w'.threads = w.threads ∧
    w'.nextThread = w.nextThread := by
  cases h <;> exact ⟨rfl, rfl, rfl, rfl, rfl⟩

theorem OpenEffect.beside (h : OpenEffect w w') : Beside i w w' := by
  obtain ⟨hhandling, hcancelled, hlist, -, -⟩ := h.rest
  refine beside_of_unmoved h.interference ?_ hcancelled (fun hused ↦ h.unmoved hused)
    (.inl (congrFun hlist i))
  rw [hhandling]
  exact id

theorem AcceptEffect.rest (h : AcceptEffect w w') : w'.handlingState = w.handlingState ∧
    w'.cancelled = w.cancelled ∧
    (w'.clientconnlist = w.clientconnlist ∨ w'.clientconnlist = fun _ ↦ none) := by
  have hinit : ∀ w : World, w.initClientconnlist.handlingState = w.handlingState ∧
      w.initClientconnlist.cancelled = w.cancelled ∧
      (w.initClientconnlist.clientconnlist = w.clientconnlist ∨
        w.initClientconnlist.clientconnlist = fun _ ↦ none) := by
    intro w
    rw [World.initClientconnlist]
    split
    · exact ⟨rfl, rfl, .inl rfl⟩
    · exact ⟨rfl, rfl, .inr rfl⟩
  cases h with
  | nothing => exact ⟨rfl, rfl, .inl rfl⟩
  | rejected fd hfd => exact hinit (w.openFd fd .connection)
  | accepted k fd hk hfd => exact hinit (w.openFd fd .connection)

theorem AcceptEffect.beside (h : AcceptEffect w w') : Beside i w w' := by
  obtain ⟨hhandling, hcancelled, hlist⟩ := h.rest
  refine beside_of_unmoved h.interference ?_ hcancelled (fun hused ↦ h.unmoved hused) ?_
  · rw [hhandling]
    exact id
  · exact hlist.imp (congrFun · i) (congrFun · i)

theorem Handles.keepsLifecycle (h : Handles w w') : KeepsLifecycle w w' := by
  refine ⟨?_, ?_, fun j ↦ ?_⟩
  · rw [h.rest]
  · rw [h.rest]
  · rw [h.session j]
    exact ⟨rfl, rfl, rfl⟩

theorem Handles.beside (h : Handles w w') : Beside i w w' := by
  refine beside_of_unmoved h.keepsLifecycle.interference ?_ ?_ (fun _ ↦ h.session i) (h.unlisted i)
  · rw [h.rest]
    exact id
  · rw [h.rest]

theorem beside_closes : Beside i w { w with handlingState := .terminating } := by
  refine beside_of_unmoved ?_ (fun _ ↦ nofun) rfl (fun _ ↦ .refl _) (.inl rfl)
  exact KeepsLifecycle.interference ⟨rfl, rfl, fun _ ↦ ⟨rfl, rfl, rfl⟩⟩

theorem RunnerStep.rest (h : RunnerStep k m w w') : w'.handlingState = w.handlingState ∧
    w'.cancelled = w.cancelled ∧ (k ≠ i → w'.clientconnlist i = w.clientconnlist i ∨
      w'.clientconnlist i = none) := by
  cases h with
  | tends h =>
    refine ⟨?_, ?_, fun _ ↦ .inl ?_⟩ <;> rw [h.rest]
  | accepts h =>
    obtain ⟨hhandling, hcancelled, hlist⟩ := h.rest
    exact ⟨hhandling, hcancelled, fun _ ↦ hlist.imp (congrFun · i) (congrFun · i)⟩
  | lists => exact ⟨rfl, rfl, fun hki ↦ .inl (Function.update_of_ne (Ne.symm hki) _ _)⟩
  | _ => exact ⟨rfl, rfl, fun _ ↦ .inl rfl⟩

theorem RunnerStep.beside (h : RunnerStep k m w w') (ht : w.threads t = some (k, m))
    (hw : Lifecycle w) : Beside i w w' := by
  have hinterference : Interference i w w' := h.effect.interference ⟨t, m, ht⟩
  obtain ⟨hhandling, hcancelled, hlist⟩ := h.rest (i := i)
  have hhandling' : w.handlingState ≠ .running → w'.handlingState ≠ .running := by
    rw [hhandling]
    exact id
  by_cases hik : i = k
  · subst hik
    have hthread : w.HasThread i := ⟨t, m, ht⟩
    have hused : (w.session i).state ≠ .unused := fun hunused ↦ hw.idle (.inl hunused) hthread
    exact ⟨hinterference, hhandling', hcancelled, fun _ ↦ h.module hused,
      fun _ halone ↦ absurd hthread halone, fun _ halone ↦ absurd hthread halone⟩
  · exact beside_of_unmoved hinterference hhandling' hcancelled (fun hused ↦ h.unmoved hik hused)
      (hlist (Ne.symm hik))

end Beside

/-! ## Order -/

section Order

variable {i j : Slot} {w w' : World} {m : Module} {t : ℕ} {s s' : Session}

theorem Session.Tidy.unmoved (h : s.Tidy) (hs : s.Unmoved s') : s'.Tidy where
  used := by
    rw [unmoved_state s s' hs, unmoved_module s s' hs]
    exact h.used
  startable := by
    rw [unmoved_state s s' hs, unmoved_module s s' hs, unmoved_fd s s' hs,
      unmoved_pcapHandle s s' hs, unmoved_pcapDumper s s' hs]
    exact h.startable
  undumped := by
    rw [unmoved_module s s' hs, unmoved_pcapDumper s s' hs]
    exact h.undumped

theorem Session.tidy_opened (hm : s.module = some m)
    (hhandle : m ≠ .livecapture → s.pcapHandle = none)
    (hdumper : s.pcapDumper = none) (hfd : m = .client ∨ m = .merger → s.fd = 0) : s.Tidy where
  used := fun _ ↦ ⟨m, hm⟩
  startable := by
    intro m' _ hm'
    obtain rfl := Option.some.inj (hm.symm.trans hm')
    cases m with
    | client => exact ⟨hfd (.inl rfl), hhandle nofun, hdumper⟩
    | merger => exact ⟨hfd (.inr rfl), hhandle nofun, hdumper⟩
    | clientconn => exact ⟨hhandle nofun, hdumper⟩
    | filecapture => exact ⟨hhandle nofun, hdumper⟩
    | server => trivial
    | livecapture => exact hdumper
  undumped := fun _ _ _ ↦ hdumper

theorem Module.Startable.cleared {fd : ℤ} {handle : Option PcapHandle} {dumper : Option PcapDumper}
    (h : m.Startable fd handle dumper) : m.Startable 0 handle dumper ∧
      m.Startable fd none dumper ∧ m.Startable fd handle none := by
  cases m with
  | client => exact ⟨⟨rfl, h.2⟩, ⟨h.1, rfl, h.2.2⟩, h.1, h.2.1, rfl⟩
  | merger => exact ⟨⟨rfl, h.2⟩, ⟨h.1, rfl, h.2.2⟩, h.1, h.2.1, rfl⟩
  | clientconn => exact ⟨h, ⟨rfl, h.2⟩, h.1, rfl⟩
  | filecapture => exact ⟨h, ⟨rfl, h.2⟩, h.1, rfl⟩
  | server => exact ⟨trivial, trivial, trivial⟩
  | livecapture => exact ⟨h, h, rfl⟩

theorem SupervisorStep.unmoved (h : SupervisorStep i w w') (hj : j ≠ i) :
    (w.session j).Unmoved (w'.session j) := by
  cases h with
  | pauses => exact .refl _
  | tends h => exact h.session j
  | cancels => exact .refl _
  | joins => exact .refl _
  | unlists => exact .refl _
  | closesDumper => exact .refl _
  | closesHandle => exact .refl _
  | closesFd => exact .refl _
  | creates m =>
    rw [World.session_createThread_of_ne _ _ hj]
    exact .refl _
  | _ => exact w.unmoved_modifySession_of_ne hj _

theorem SupervisorStep.module (h : SupervisorStep i w w') :
    (w'.session i).module = (w.session i).module := by
  cases h with
  | tends h => exact unmoved_module _ _ (h.session i)
  | creates m => rw [World.session_createThread_self]
  | pauses => rfl
  | cancels => rfl
  | joins => rfl
  | unlists => rfl
  | closesDumper => rfl
  | closesHandle => rfl
  | closesFd => rfl
  | _ => exact (congrArg Session.module (World.session_modifySession_self ..)).trans rfl

theorem SupervisorStep.tidy (h : SupervisorStep i w w') (hs : (w.session i).Tidy) :
    (w'.session i).Tidy := by
  cases h with
  | pauses => exact hs
  | tends h => exact hs.unmoved (h.session i)
  | cancels => exact hs
  | joins => exact hs
  | unlists => exact hs
  | closesDumper => exact hs
  | closesHandle => exact hs
  | closesFd => exact hs
  | orders newState hused hnew =>
    rw [World.setState, World.session_modifySession_self]
    refine ⟨fun _ ↦ hs.used hused, fun hstart ↦ ?_, hs.undumped⟩
    rcases hnew with rfl | rfl | ⟨rfl | rfl, -⟩ <;> cases hstart
  | counts n =>
    rw [World.session_modifySession_self]
    exact ⟨hs.used, hs.startable, hs.undumped⟩
  | starts halone hstate =>
    rw [World.setState, World.session_modifySession_self]
    exact ⟨fun _ ↦ hs.used (by simp [hstate]), by simp, hs.undumped⟩
  | creates m =>
    rw [World.session_createThread_self]
    exact ⟨hs.used, hs.startable, hs.undumped⟩
  | forgets =>
    rw [World.session_modifySession_self]
    exact ⟨hs.used, hs.startable, hs.undumped⟩
  | clearsDumper =>
    rw [World.session_modifySession_self]
    exact ⟨hs.used, fun hstart hm ↦ (hs.startable hstart hm).cleared.2.2, fun _ _ _ ↦ rfl⟩
  | clearsHandle =>
    rw [World.session_modifySession_self]
    exact ⟨hs.used, fun hstart hm ↦ (hs.startable hstart hm).cleared.2.1, hs.undumped⟩
  | clearsFd =>
    rw [World.session_modifySession_self]
    exact ⟨hs.used, fun hstart hm ↦ (hs.startable hstart hm).cleared.1, hs.undumped⟩
  | decides m halone hused hm hdetached hstart =>
    rw [World.setState, World.session_modifySession_self]
    refine ⟨fun _ ↦ ⟨m, hm⟩, fun hstate hm' ↦ ?_, hs.undumped⟩
    obtain rfl := Option.some.inj (hm.symm.trans hm')
    exact hstart hstate
  | releases =>
    rw [World.setState, World.session_modifySession_self]
    exact ⟨fun hne ↦ absurd rfl hne, by simp, hs.undumped⟩

theorem SupervisorStep.threads (h : SupervisorStep i w w') :
    w'.threads = w.threads ∧ w'.nextThread = w.nextThread ∨
    (∃ m, (w.session i).module = some m ∧ w' = w.createThread i m) ∨
    w' = w.joinThread (w.session i).thread := by
  cases h with
  | tends h =>
    refine .inl ⟨?_, ?_⟩ <;> rw [h.rest]
  | creates m _ _ hm => exact .inr (.inl ⟨m, hm, rfl⟩)
  | joins => exact .inr (.inr rfl)
  | _ => exact .inl ⟨rfl, rfl⟩

theorem RunnerStep.pcapDumper (h : RunnerStep i m w w') (hused : (w.session i).state ≠ .unused)
    (hconn : m ≠ .clientconn) (hmerger : m ≠ .merger) :
    (w'.session i).pcapDumper = (w.session i).pcapDumper := by
  cases h with
  | pauses => rfl
  | lists => rfl
  | tends h => exact unmoved_pcapDumper _ _ (h.session i)
  | accepts h => exact unmoved_pcapDumper _ _ (h.unmoved hused)
  | dumper => exact absurd rfl hconn
  | dumpFile => exact absurd rfl hmerger
  | dumpFileFd => exact absurd rfl hmerger
  | notes _ f hf => rw [World.session_modifySession_self, hf]
  | _ => exact (congrArg Session.pcapDumper (World.session_modifySession_self ..)).trans rfl

theorem OpenEffect.tidy (h : OpenEffect w w') (hw : ∀ j, (w.session j).Tidy) (j : Slot) :
    (w'.session j).Tidy := by
  have hplace : ∀ {w₁ : World} {k : Slot} {s : Session}, w₁.session = w.session → s.Tidy →
      ((w₁.place k s).session j).Tidy := by
    intro w₁ k s hw₁ hs
    by_cases hjk : j = k
    · rw [hjk, World.place, World.session_modifySession_self]
      exact hs
    · rw [World.place, World.session_modifySession_of_ne _ hjk, hw₁]
      exact hw j
  cases h with
  | full => exact hw j
  | refused k m hk =>
    exact hplace rfl (Session.tidy_opened (m := m) rfl (fun _ ↦ rfl) rfl fun _ ↦ rfl)
  | plain k s hk hs =>
    refine hplace rfl ?_
    rcases hs with hs | hs | hs
    · rw [hs]
      exact Session.tidy_opened (m := .client) rfl (fun _ ↦ rfl) rfl fun _ ↦ rfl
    · rw [hs]
      exact Session.tidy_opened (m := .merger) rfl (fun _ ↦ rfl) rfl fun _ ↦ rfl
    · rw [hs]
      exact Session.tidy_opened (m := .filecapture) rfl (fun _ ↦ rfl) rfl fun _ ↦ rfl
  | server k fd hk hfd =>
    refine hplace rfl (Session.tidy_opened (m := .server) rfl (fun _ ↦ rfl) rfl ?_)
    rintro (h | h) <;> cases h
  | livecapture k fd selectable hk hfd =>
    refine hplace rfl (Session.tidy_opened (m := .livecapture) rfl (absurd rfl ·) rfl ?_)
    rintro (h | h) <;> cases h

theorem AcceptEffect.tidy (h : AcceptEffect w w') (hw : ∀ j, (w.session j).Tidy) (j : Slot) :
    (w'.session j).Tidy := by
  cases h with
  | nothing => exact hw j
  | rejected fd hfd =>
    rw [World.close_session, (World.initClientconnlist_session _).1]
    exact hw j
  | accepted k fd hk hfd =>
    by_cases hjk : j = k
    · rw [hjk, World.place, World.session_modifySession_self]
      refine Session.tidy_opened (m := .clientconn) rfl (fun _ ↦ rfl) rfl ?_
      rintro (h | h) <;> cases h
    · rw [World.place, World.session_modifySession_of_ne _ hjk,
        (World.initClientconnlist_session _).1]
      exact hw j

theorem RunnerStep.tidy (h : RunnerStep i m w w') (hw : Orderly w) (ht : w.threads t = some (i, m))
    (hlifecycle : Lifecycle w') (j : Slot) : (w'.session j).Tidy := by
  have hthread' : w'.HasThread i := ⟨t, m, h.threads.1 ▸ ht⟩
  have hused : (w.session i).state ≠ .unused := fun hunused ↦
    hw.lifecycle.idle (.inl hunused) ⟨t, m, ht⟩
  by_cases hji : j = i
  · subst hji
    refine ⟨fun _ ↦ ⟨m, (h.module hused).trans (hw.thread_module ht)⟩,
      fun hstart ↦ absurd hthread' (hlifecycle.idle (.inr hstart)), fun hm' hconn hmerger ↦ ?_⟩
    rw [h.module hused, hw.thread_module ht] at hm'
    obtain rfl := Option.some.inj hm'
    rw [h.pcapDumper hused hconn hmerger]
    exact (hw.tidy j).undumped (hw.thread_module ht) hconn hmerger
  · rcases h.unmoved_or_accepts hji with hunmoved | haccepts
    · exact (hw.tidy j).unmoved hunmoved
    · exact haccepts.tidy hw.tidy j

theorem Orderly.of_keeps (hw : Orderly w) (hlifecycle : Lifecycle w')
    (hthreads : w'.threads = w.threads ∧ w'.nextThread = w.nextThread)
    (htidy : ∀ j, (w'.session j).Tidy)
    (hmodule : ∀ t j m, w.threads t = some (j, m) →
      (w'.session j).module = (w.session j).module) : Orderly w' where
  lifecycle := hlifecycle
  tidy := htidy
  thread_module := by
    intro t j m ht
    rw [hthreads.1] at ht
    exact (hmodule t j m ht).trans (hw.thread_module ht)
  thread_lt := by
    intro t j m ht
    rw [hthreads.1] at ht
    rw [hthreads.2]
    exact hw.thread_lt ht

theorem SupervisorStep.orderly (h : SupervisorStep i w w') (hw : Orderly w)
    (hlifecycle : Lifecycle w') : Orderly w' := by
  have htidy : ∀ j, (w'.session j).Tidy := by
    intro j
    by_cases hji : j = i
    · exact hji ▸ h.tidy (hw.tidy i)
    · exact (hw.tidy j).unmoved (h.unmoved hji)
  have hmodule : ∀ j, (w'.session j).module = (w.session j).module := by
    intro j
    by_cases hji : j = i
    · exact hji ▸ h.module
    · exact unmoved_module _ _ (h.unmoved hji)
  rcases h.threads with hthreads | ⟨m, hm, rfl⟩ | rfl
  · exact hw.of_keeps hlifecycle hthreads htidy fun _ j _ _ ↦ hmodule j
  · refine ⟨hlifecycle, htidy, fun {t j m'} ht ↦ ?_, fun {t j m'} ht ↦ ?_⟩
    · rw [hmodule]
      rw [World.threads_createThread] at ht
      split at ht
      · cases ht
        exact hm
      · exact hw.thread_module ht
    · change t < w.nextThread + 1
      rw [World.threads_createThread] at ht
      split at ht
      · rename_i heq
        rw [heq]
        exact Nat.lt_succ_self _
      · exact Nat.lt_succ_of_lt (hw.thread_lt ht)
  · have hsub : ∀ {t x}, (w.joinThread (w.session i).thread).threads t = some x →
        w.threads t = some x := by
      intro t x ht
      rw [World.threads_joinThread] at ht
      split at ht
      · cases ht
      · exact ht
    exact ⟨hlifecycle, htidy, fun ht ↦ hw.thread_module (hsub ht), fun ht ↦ hw.thread_lt (hsub ht)⟩

/-- **Deeds keep the world orderly.** -/
theorem Deed.orderly (h : Deed w w') (hw : Orderly w) (hlifecycle : Lifecycle w') : Orderly w' := by
  have hused : ∀ {t j m}, w.threads t = some (j, m) → (w.session j).state ≠ .unused :=
    fun {t j m} ht hunused ↦ hw.lifecycle.idle (.inl hunused) ⟨t, m, ht⟩
  cases h with
  | opens h =>
    obtain ⟨-, -, -, hthreads⟩ := h.rest
    exact hw.of_keeps hlifecycle hthreads (h.tidy hw.tidy) fun t j m ht ↦
      unmoved_module _ _ (h.unmoved (hused ht))
  | supervises i h => exact h.orderly hw hlifecycle
  | runs t i m ht h =>
    refine hw.of_keeps hlifecycle h.threads (h.tidy hw ht hlifecycle) fun t' j m' ht' ↦ ?_
    by_cases hji : j = i
    · exact hji ▸ h.module (hused ht)
    · exact unmoved_module _ _ (h.unmoved hji (hused ht'))
  | handles t i m ht h =>
    refine hw.of_keeps hlifecycle ⟨h.keepsLifecycle.threads, h.keepsLifecycle.nextThread⟩
      (fun j ↦ (hw.tidy j).unmoved (h.session j)) fun _ j _ _ ↦ unmoved_module _ _ (h.session j)
  | closes => exact hw.of_keeps hlifecycle ⟨rfl, rfl⟩ hw.tidy fun _ _ _ _ ↦ rfl

end Order

/-! ## Soundness -/

/-- What is true of a configuration that can be reached. -/
structure Machine.Sound (c : Machine) : Prop where
  /-- The world is orderly. -/
  orderly : Orderly c.world
  /-- The visit completes the stop it orders, and takes supervisor steps. -/
  visit : ∃ i, c.visit.Sat (Interference i) KeepsInvariant (fun _ ↦ Quiet) c.world ∧
    c.visit.Sat (Attends i) (SupervisorStep i) (fun _ _ ↦ True) c.world
  /-- What a thread has still to execute is good. -/
  pool : ∀ {t i m}, c.world.threads t = some (i, m) →
    (c.pool t).Sat (RunnerRely i) (ThreadStep i m) (fun _ _ ↦ True) c.world

section Sound

variable {c c' : Machine} {w w' : World} {i j : Slot} {m : Module} {t : ℕ} {a : Action}

/-- A visit leaves what a session holds alone while the session has a thread. -/
theorem SupervisorStep.rely (h : SupervisorStep i w w') (hthread : w.HasThread j) :
    RunnerRely j w w' := by
  by_cases hji : j = i
  · subst hji
    have hset : ∀ newState, RunnerRely j w (w.setState j newState) := by
      intro newState
      rw [RunnerRely, World.setState, World.session_modifySession_self]
      exact ⟨rfl, rfl, rfl⟩
    cases h with
    | pauses => exact refl_of (RunnerRely j) w
    | tends h => exact runnerRely_of_unmoved (h.session j)
    | orders newState => exact hset newState
    | counts n =>
      rw [RunnerRely, World.session_modifySession_self]
      exact ⟨rfl, rfl, rfl⟩
    | cancels => exact ⟨rfl, rfl, rfl⟩
    | joins => exact ⟨rfl, rfl, rfl⟩
    | starts halone => exact absurd hthread halone
    | creates m halone => exact absurd hthread halone
    | forgets halone => exact absurd hthread halone
    | unlists halone => exact absurd hthread halone
    | closesDumper dumper halone => exact absurd hthread halone
    | clearsDumper halone => exact absurd hthread halone
    | closesHandle handle halone => exact absurd hthread halone
    | clearsHandle halone => exact absurd hthread halone
    | closesFd m halone => exact absurd hthread halone
    | clearsFd halone => exact absurd hthread halone
    | decides m halone => exact absurd hthread halone
    | releases halone => exact absurd hthread halone
  · exact runnerRely_of_unmoved (h.unmoved hji)

theorem Orderly.attends (h : Orderly w) : Attends i w w := ⟨.refl i w, h⟩

theorem Orderly.thread_unique (h : Orderly w) {t' : ℕ} {m' : Module}
    (ht : w.threads t = some (i, m)) (ht' : w.threads t' = some (i, m')) : t' = t :=
  (h.lifecycle.thread_eq ht').symm.trans (h.lifecycle.thread_eq ht)

theorem Orderly.used_of_thread (h : Orderly w) (ht : w.threads t = some (i, m)) :
    (w.session i).state ≠ .unused := fun hunused ↦ h.lifecycle.idle (.inl hunused) ⟨t, m, ht⟩

/-- A deed beside the visit, by somebody else than thread `t`. -/
theorem Machine.Sound.beside (h : c.Sound) (hbeside : ∀ i, Beside i c.world w')
    (hdeed : Deed c.world w') :
    Orderly w' ∧ ∃ i, c.visit.Sat (Interference i) KeepsInvariant (fun _ ↦ Quiet) w' ∧
      c.visit.Sat (Attends i) (SupervisorStep i) (fun _ _ ↦ True) w' := by
  have horderly : Orderly w' := hdeed.orderly h.orderly ((hbeside 0).lifecycle h.orderly.lifecycle)
  obtain ⟨i, hquiet, hsteps⟩ := h.visit
  exact ⟨horderly, i, hquiet.rely (hbeside i).toInterference, hsteps.rely ⟨hbeside i, horderly⟩⟩

theorem Machine.Sound.opens (h : c.Sound) (heffect : OpenEffect c.world w') :
    Machine.Sound { c with world := w' } := by
  obtain ⟨horderly, hvisit⟩ := h.beside (fun _ ↦ heffect.beside) (.opens heffect)
  refine ⟨horderly, hvisit, fun {t j m} ht ↦ ?_⟩
  have ht : c.world.threads t = some (j, m) := heffect.rest.2.2.2.1 ▸ ht
  exact (h.pool ht).rely (runnerRely_of_unmoved (heffect.unmoved (h.orderly.used_of_thread ht)))

theorem Machine.Sound.closes (h : c.Sound) :
    Machine.Sound { c with world := { c.world with handlingState := .terminating } } := by
  obtain ⟨horderly, hvisit⟩ := h.beside (fun _ ↦ beside_closes) .closes
  exact ⟨horderly, hvisit, fun ht ↦ (h.pool ht).rely ⟨rfl, rfl, rfl⟩⟩

theorem Machine.Sound.quiet (h : c.Sound) (hreturned : c.visit.returned = true) :
    Quiet c.world := by
  obtain ⟨k, hquiet, -⟩ := h.visit
  obtain ⟨counted, hvisit⟩ := Prog.eq_ret_of_returned hreturned
  rw [hvisit] at hquiet
  exact hquiet.ret

theorem Machine.Sound.visits (h : c.Sound) (hreturned : c.visit.returned = true) (i : Slot) :
    Machine.Sound { c with visit := superviseSession i } := by
  have hquiet : Quiet c.world := h.quiet hreturned
  exact ⟨h.orderly, ⟨i, triple_superviseSession i _ hquiet, steps_superviseSession i _ hquiet⟩,
    h.pool⟩

theorem spawned_createThread (h : Orderly w) (pool : ℕ → SessionProg Unit) (i : Slot) (m : Module) :
    spawned w (w.createThread i m) pool w.nextThread = runner m i := by
  refine spawned_of_new (World.threads_nextThread h.thread_lt) ?_
  rw [World.threads_createThread, if_pos rfl]

/-- A thread after a statement of a visit is new, or was there before. -/
theorem SupervisorStep.thread_cases (h : SupervisorStep i w w') (ht : w'.threads t = some (j, m)) :
    w.threads t = some (j, m) ∨
      j = i ∧ t = w.nextThread ∧ w' = w.createThread i m ∧ ¬ w.HasThread i ∧
        (w.session i).state = .starting ∧
        m.Startable (w.session i).fd (w.session i).pcapHandle (w.session i).pcapDumper := by
  cases h with
  | creates m' halone hstate hm hstartable =>
    rw [World.threads_createThread] at ht
    split at ht
    · rename_i hnew
      obtain ⟨rfl, rfl⟩ := Prod.mk.inj (Option.some.inj ht)
      exact .inr ⟨rfl, hnew, rfl, halone, hstate, hstartable⟩
    · exact .inl ht
  | joins =>
    rw [World.threads_joinThread] at ht
    split at ht
    · cases ht
    · exact .inl ht
  | tends h =>
    rw [h.rest] at ht
    exact .inl ht
  | _ => exact .inl ht

theorem sat_thread_of_runner {p : SessionProg Unit}
    (h : p.Sat (RunnerRely i) (RunnerStep i m) (fun _ _ ↦ True) w) :
    p.Sat (RunnerRely i) (ThreadStep i m) (fun _ _ ↦ True) w :=
  h.mono (fun _ _ ↦ .inl) fun _ _ h ↦ h

theorem Machine.Sound.supervises (h : c.Sound) {z : ℤ} {p : SessionProg Bool}
    (hnext : c.visit.next z c.world = some (p, w')) :
    (∃ i, SupervisorStep i c.world w') ∧
      Machine.Sound ⟨w', p, spawned c.world w' c.pool⟩ := by
  obtain ⟨i, hquiet, hsteps⟩ := h.visit
  have hstep := Prog.step_of_next hnext
  obtain ⟨hkeeps, hquiet'⟩ := hquiet.step hstep
  obtain ⟨hsupervises, hsteps'⟩ := hsteps.step_of h.orderly.attends hstep
  have hsupervises : SupervisorStep i c.world w' := by
    rcases hsupervises with hstep | rfl
    · exact hstep
    · exact .pauses
  have hlifecycle : Lifecycle w' := by
    rcases hkeeps with hkeeps | rfl
    · exact hkeeps h.orderly.lifecycle
    · exact h.orderly.lifecycle
  have horderly : Orderly w' := hsupervises.orderly h.orderly hlifecycle
  refine ⟨⟨i, hsupervises⟩, horderly, ⟨i, hquiet', hsteps'⟩, fun {t j m} ht ↦ ?_⟩
  rcases hsupervises.thread_cases ht with hold | ⟨rfl, rfl, rfl, halone, hstate, hstartable⟩
  · change (spawned c.world w' c.pool t).Sat _ _ _ _
    rw [spawned_of_some hold]
    exact (h.pool hold).rely (hsupervises.rely ⟨t, m, hold⟩)
  · change (spawned c.world _ c.pool _).Sat _ _ _ _
    rw [spawned_createThread h.orderly]
    refine sat_thread_of_runner (triple_runner m j _ ?_)
    rw [Holds, World.session_createThread_self]
    exact hstartable

/-- A statement of the thread of a session does one of two deeds. -/
theorem ThreadStep.deed (h : ThreadStep i m w w') (ht : w.threads t = some (i, m)) : Deed w w' :=
  h.elim (.runs t i m ht) (.handles t i m ht)

theorem ThreadStep.beside (h : ThreadStep i m w w') (ht : w.threads t = some (i, m))
    (hw : Lifecycle w) : Beside j w w' := by
  rcases h with h | h
  · exact h.beside ht hw
  · exact h.beside

theorem ThreadStep.threads (h : ThreadStep i m w w') : w'.threads = w.threads := by
  rcases h with h | h
  · exact h.threads.1
  · exact h.keepsLifecycle.threads

theorem ThreadStep.unmoved (h : ThreadStep i m w w') (hj : j ≠ i)
    (hused : (w.session j).state ≠ .unused) : (w.session j).Unmoved (w'.session j) := by
  rcases h with h | h
  · exact h.unmoved hj hused
  · exact h.session j

theorem Machine.Sound.runs (h : c.Sound) (ht : c.world.threads t = some (i, m)) {z : ℤ}
    {p : SessionProg Unit} (hnext : (c.pool t).next z c.world = some (p, w')) :
    ThreadStep i m c.world w' ∧
      Machine.Sound { c with world := w', pool := Function.update c.pool t p } := by
  obtain ⟨hG, hrest⟩ := (h.pool ht).step (Prog.step_of_next hnext)
  have hstep : ThreadStep i m c.world w' := by
    rcases hG with hG | rfl
    · exact hG
    · exact .inl (.pauses _)
  obtain ⟨horderly, hvisit⟩ :=
    h.beside (fun _ ↦ hstep.beside ht h.orderly.lifecycle) (hstep.deed ht)
  refine ⟨hstep, horderly, hvisit, fun {t' j m'} ht' ↦ ?_⟩
  have hold : c.world.threads t' = some (j, m') := hstep.threads ▸ ht'
  change (Function.update c.pool t p t').Sat _ _ _ w'
  by_cases htt : t' = t
  · obtain ⟨rfl, rfl⟩ := Prod.mk.inj (Option.some.inj ((htt ▸ hold).symm.trans ht))
    rw [htt, Function.update_self]
    exact hrest
  · rw [Function.update_of_ne htt]
    have hji : j ≠ i := by
      rintro rfl
      exact htt (h.orderly.thread_unique ht hold)
    refine (h.pool hold).rely (runnerRely_of_unmoved ?_)
    exact hstep.unmoved hji (h.orderly.used_of_thread hold)

/-- Packet handlers touch nothing but monitors, locks, buffers, streams and the list. -/
theorem handles_packetHandler {p : Packet} {handler : SessionProg Unit}
    (h : packetHandler i p m = some handler) : handler.Within Handles := by
  cases m with
  | client =>
    cases h
    exact (handles_fillBuffer i _).bind fun _ ↦ handles_pcapsessionMergerPacketHandler i _
  | livecapture =>
    cases h
    exact (handles_fillBuffer i _).bind fun _ ↦ handles_pcapsessionClientconnPacketHandler i _
  | filecapture =>
    cases h
    exact (handles_fillBuffer i _).bind fun _ ↦ handles_pcapsessionClientconnPacketHandler i _
  | clientconn => cases h
  | merger => cases h
  | server => cases h

/-- What `pcap_loop` has still to execute when it delivers a packet. -/
theorem Machine.delivered_cases {p : Packet} {x : SessionProg Unit} (h : c.delivered t p = some x) :
    ∃ i m k handler, c.world.threads t = some (i, m) ∧ c.pool t = .ask .pcapLoop k ∧
      packetHandler i p m = some handler ∧ x = handler >>= fun _ ↦ .ask .pcapLoop k := by
  unfold Machine.delivered at h
  split at h
  · rename_i i m k hthread hpool
    obtain ⟨handler, hhandler, rfl⟩ := Option.map_eq_some_iff.mp h
    exact ⟨i, m, k, handler, hthread, hpool, hhandler, rfl⟩
  · cases h

theorem Machine.Sound.delivers (h : c.Sound) {p : Packet} {x : SessionProg Unit}
    (hx : c.delivered t p = some x) :
    Machine.Sound { c with pool := Function.update c.pool t x } := by
  obtain ⟨i, m, k, handler, ht, hpool, hhandler, rfl⟩ := Machine.delivered_cases hx
  refine ⟨h.orderly, h.visit, fun {t' j m'} ht' ↦ ?_⟩
  change (Function.update c.pool t _ t').Sat _ _ _ _
  by_cases htt : t' = t
  · subst htt
    obtain ⟨rfl, rfl⟩ := Prod.mk.inj (Option.some.inj (ht.symm.trans ht'))
    rw [Function.update_self]
    -- The handler leaves alone what the rest of the runner depends on.
    have hwait := h.pool ht
    rw [hpool] at hwait
    have hframe := Prog.Triple.frame (R := RunnerRely i) (H := ThreadStep i m)
      (P := (Prog.ask .pcapLoop k).Sat (RunnerRely i) (ThreadStep i m) fun _ _ ↦ True)
      (handles_packetHandler hhandler) (fun _ _ hR hs ↦ hs.rely hR)
      (fun w w' hw hs ↦ hs.rely (runnerRely_of_unmoved (hw.session i))) fun _ _ hw _ ↦ .inr hw
    exact (hframe _ hwait).bind
  · rw [Function.update_of_ne htt]
    exact h.pool ht'

theorem Machine.Sound.ends (h : c.Sound) :
    Machine.Sound { c with pool := Function.update c.pool t (.ret ()) } := by
  refine ⟨h.orderly, h.visit, fun {t' j m'} ht' ↦ ?_⟩
  change (Function.update c.pool t _ t').Sat _ _ _ _
  by_cases htt : t' = t
  · rw [htt, Function.update_self]
    exact fun _ _ ↦ trivial
  · rw [Function.update_of_ne htt]
    exact h.pool ht'

theorem Machine.sound_init : Machine.init.Sound := by
  have hlifecycle : Lifecycle World.init :=
    ⟨nofun, rfl, Nat.zero_lt_one, fun _ ⟨_, _, h⟩ ↦ (nomatch h), fun _ ↦ Nat.zero_le _⟩
  have hquiet : Quiet World.init := ⟨hlifecycle, fun _ ↦ ⟨nofun, nofun, nofun⟩⟩
  refine ⟨⟨hlifecycle, fun _ ↦ ⟨fun h ↦ absurd rfl h, nofun, nofun⟩, nofun, nofun⟩,
    ⟨0, ?_, ?_⟩, nofun⟩
  · exact fun w hR ↦ Quiet.stable _ _ hR hquiet
  · exact fun _ _ ↦ trivial

/-- **One action** of a sound machine does a deed, unless it leaves the world as it is, and leaves a
sound machine. -/
theorem Machine.Sound.step (h : c.Sound) (hstep : c.step a = some c') :
    (Deed c.world c'.world ∨ c'.world = c.world) ∧ c'.Sound := by
  cases a with
  | opens call answer =>
    obtain ⟨r, w', hexec, rfl⟩ := Machine.opens_cases hstep
    exact ⟨.inl (.opens (openEffect_of_exec hexec)), h.opens (openEffect_of_exec hexec)⟩
  | visits i =>
    obtain ⟨hreturned, rfl⟩ := Machine.visits_cases hstep
    exact ⟨.inr rfl, h.visits hreturned i⟩
  | supervises z =>
    obtain ⟨p, w', hnext, -, rfl⟩ := Machine.supervises_cases hstep
    obtain ⟨⟨i, hsupervises⟩, hsound⟩ := h.supervises hnext
    exact ⟨.inl (.supervises i hsupervises), hsound⟩
  | runs t z =>
    obtain ⟨i, m, p, w', -, ht, hnext, rfl⟩ := Machine.runs_cases hstep
    obtain ⟨hthread, hsound⟩ := h.runs ht hnext
    exact ⟨.inl (hthread.deed ht), hsound⟩
  | delivers t p =>
    obtain ⟨x, -, hx, rfl⟩ := Machine.delivers_cases hstep
    exact ⟨.inr rfl, h.delivers hx⟩
  | ends t =>
    obtain ⟨i, m, -, -, rfl⟩ := Machine.ends_cases hstep
    exact ⟨.inr rfl, h.ends⟩
  | closes =>
    cases hstep
    exact ⟨.inl .closes, h.closes⟩

/-- **Every reachable configuration is sound.** -/
theorem Machine.sound_of_run {as : List Action} (h : Machine.init.run as = some c) : c.Sound :=
  Machine.run_induction (P := fun _ _ ↦ True) (fun _ _ _ hc _ hstep ↦ (hc.step hstep).2)
    (fun _ _ _ _ _ _ ↦ trivial) Machine.sound_init h

/-- **What deeds preserve** in an orderly world is true in every state that can be reached. -/
theorem Machine.invariant_of_run {I : World → Prop} {as : List Action}
    (hdeed : ∀ w w', Orderly w → Orderly w' → Deed w w' → I w → I w') (hinit : I World.init)
    (h : Machine.init.run as = some c) : I c.world := by
  refine (Machine.run_induction (I := fun c ↦ c.Sound ∧ I c.world) (P := fun _ _ ↦ True)
    (fun c a c' hc _ hstep ↦ ?_) (fun _ _ _ _ _ _ ↦ trivial) ⟨Machine.sound_init, hinit⟩ h).2
  obtain ⟨hdeed', hsound⟩ := hc.1.step hstep
  refine ⟨hsound, ?_⟩
  rcases hdeed' with hdeed' | hsame
  · exact hdeed _ _ hc.1.orderly hsound.orderly hdeed' hc.2
  · exact hsame ▸ hc.2

end Sound

end DistributorMerger
