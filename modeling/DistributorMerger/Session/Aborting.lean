import DistributorMerger.Concurrency.Guarded
import DistributorMerger.Session.Locks
import DistributorMerger.Session.Persistence
import DistributorMerger.Session.Discipline

/-!
# Aborts

While session handling shuts down, a visit writes `ABORTING` over the state of the session, cancels
and joins its thread, and calls the stopper, which stops the session for good when it finds it
`ABORTING`. Until it ends, the thread goes on, and may write `RUNNING` or `TERMINATE` over the order
on its way. The stopper then does not know of the abort any more: it has the session started again,
unless the session was at its end in any case.

So an abort ends a session exactly if the session is doomed when its thread is joined.
-/

namespace DistributorMerger

/-- The stopper stops the session for good: it is aborted, or a client connection, or a file capture
without a pass left. -/
def Session.Doomed (s : Session) : Prop :=
  s.state = .aborting ∨ s.module = some .clientconn ∨
    s.module = some .filecapture ∧ s.iterations = 0

/-- A step writes `ABORTING` to the state of slot `i`. -/
def Aborts (i : Slot) (w w' : World) : Prop :=
  (w.session i).state ≠ .aborting ∧ (w'.session i).state = .aborting

instance (i : Slot) (w w' : World) : Decidable (Aborts i w w') := by
  unfold Aborts
  infer_instance

/-- A step that joins the thread of slot `i` finds the session doomed. -/
def JoinsDoomed (i : Slot) (w w' : World) : Prop :=
  w.HasThread i → ¬ w'.HasThread i → (w.session i).Doomed

/-- What an abort relies on until the slot is given back. -/
structure Pursues (i : Slot) (w w' : World) : Prop extends Attends i w w' where
  /-- The slot has not been given back. -/
  used : InUse i w
  /-- Nobody else joins the thread. -/
  joinless : w.HasThread i → w'.HasThread i

/-- A slot in use is doomed, unless it has a thread that may still be. -/
structure Pursued (i : Slot) (w : World) : Prop where
  /-- The slot is in use. -/
  used : InUse i w
  /-- Without a thread it is doomed. -/
  doomed : ¬ w.HasThread i → (w.session i).Doomed

section Stop

variable {i k : Slot} {w w' : World} {s s' : Session} {m : Module}

instance : IsTrans World (Pursues i) :=
  ⟨fun _ _ _ h h' ↦ ⟨trans_of (Attends i) h.toAttends h'.toAttends, h.used,
    h'.joinless ∘ h.joinless⟩⟩

instance : Prog.Settles (Pursues i) := ⟨fun h ↦
  ⟨Prog.Settles.settles h.toAttends, InUse.stable _ _ h.toAttends h.used, id⟩⟩

theorem Session.Doomed.lasting : Lasting Session.Doomed := by
  intro s s' hs h
  rw [Session.Doomed, unmoved_state s s' hs, unmoved_module s s' hs, unmoved_iterations s s' hs]
  exact h

theorem Session.Doomed.stateAfterStop (h : s.Doomed) (hm : s.module = some m) :
    s.stateAfterStop m = .stopped := by
  rcases h with hstate | hconn | ⟨hfile, hzero⟩
  · cases m with
    | clientconn => rfl
    | filecapture => exact if_pos (.inl hstate)
    | _ => exact if_pos hstate
  · obtain rfl := Option.some.inj (hm.symm.trans hconn)
    rfl
  · obtain rfl := Option.some.inj (hm.symm.trans hfile)
    exact if_pos (.inr hzero)

theorem Pursued.stable : Prog.Stable (Pursues i) (Pursued i) := by
  intro w w' hR h
  refine ⟨InUse.stable w w' hR.toAttends h.used, fun halone ↦ ?_⟩
  have halone' : ¬ w.HasThread i := fun hthread ↦ halone (hR.joinless hthread)
  exact Session.Doomed.lasting _ _ (hR.unmoved h.used halone') (h.doomed halone')

/-! ## The stop of a doomed session -/

/-- A doomed session is stopped and its slot given back. There is nothing left to be said then: the
slot may be taken by another session at once. -/
theorem doomed_stopAndRelease :
    Prog.Triple (Pursues i) (SupervisorStep i) (Alone i Session.Doomed) (stopAndRelease i)
      fun _ _ ↦ False := by
  have hR : ∀ w w', Pursues i w w' → Attends i w w' := fun _ _ h ↦ h.toAttends
  have hstops : ∀ m : Option Module,
      Lasting fun s ↦ ∀ m', m = some m' → m'.Stops (· = .stopped) s :=
    fun m s s' hs h m' hm' ↦ Module.Stops.lasting m' _ s s' hs (h m' hm')
  have hrelease : Prog.Triple (Pursues i) (SupervisorStep i)
      (Stopping i (Session.LeftBy (· = .stopped)))
      (do
        if (← readSession i (·.state)) = .stopped then
          pcapsessionChangeState i .unused) fun _ _ ↦ False := by
    have hstable : Prog.Stable (Pursues i) (Stopping i (Session.LeftBy (· = .stopped))) :=
      fun w w' h ↦ Stopping.stable (Session.LeftBy.lasting _) w w' h.toAttends
    refine .read_bind .stopped hstable (fun w hw ↦ hw.session.1) ?_
    rw [if_pos rfl]
    intro w hw w₁ h₁ w₂ h₂
    obtain rfl := Option.some.inj h₂
    have hw₁ := hstable w w₁ h₁ hw
    refine ⟨.releases hw₁.alone hw₁.session.1 hw₁.detached hw₁.session.2, fun w₃ h₃ ↦ h₃.used ?_⟩
    rw [World.session_modifySession_self]
  refine Prog.Triple.bind (M := fun m ↦ Alone i fun s ↦
    ∀ m', m = some m' → m'.Stops (· = .stopped) s) (Prog.Triple.of_imp (R := Attends i)
      (.read_at (Alone.stable Session.Doomed.lasting) (fun m ↦ Alone.stable (hstops m))
        fun w hR hw ↦ ⟨hw.used, hw.alone, fun m hm ↦ ?_⟩) hR) fun m ↦ ?_
  · exact ⟨⟨hm, fun h h' ↦ (hR.orderly.tidy i).undumped hm h h'⟩, hw.session.stateAfterStop hm⟩
  cases m with
  | none => exact Prog.Triple.stuck.bind fun _ ↦ hrelease
  | some m =>
    have hstopper := (steps_stopper (Φ := (· = .stopped)) m).of_imp hR
    refine Prog.Triple.bind (hstopper.pre fun w hw ↦ ?_) fun _ ↦ hrelease
    exact ⟨hw.used, hw.alone, hw.session m rfl⟩

/-- **A stop that joins a doomed session gives its slot back.** -/
theorem doomed_pcapsessionStop :
    Prog.Triple (Pursues i) (SupervisorStep i) (Pursued i)
      ((pcapsessionStop i).guard (JoinsDoomed i)) fun _ _ ↦ False := by
  have hremembers : ∀ t, Prog.Stable (Pursues i) fun w ↦ Pursued i w ∧ Remembers i t w :=
    fun t w w' hR h ↦ ⟨Pursued.stable w w' hR h.1, Remembers.stable t w w' hR.toAttends h.2⟩
  have halone : Prog.Stable (Pursues i) (Alone i Session.Doomed) := fun w w' hR ↦
    Alone.stable Session.Doomed.lasting w w' hR.toAttends
  refine Prog.Triple.guard_bind (Prog.Triple.guard (.read Pursued.stable hremembers
    fun w hw ↦ ⟨hw, hw.used, rfl⟩)) fun t ↦ .guard_ite (fun ht ↦ ?_) fun ht ↦ ?_
  · -- the thread is cancelled and joined; the guard says that the session is doomed then
    have hcancelled : Prog.Stable (Pursues i) fun w ↦
        (Pursued i w ∧ Remembers i t w) ∧ w.cancelled t = true := by
      intro w w' hR h
      refine ⟨hremembers t w w' hR h.1, ?_⟩
      rw [hR.cancelled]
      exact h.2
    refine Prog.Triple.guard_bind (Prog.Triple.guard (.modify (hremembers t) hcancelled
      (fun w hw ↦ ?_) fun w hw ↦ ⟨⟨⟨hw.1.used, hw.1.doomed⟩, hw.2⟩, Function.update_self ..⟩))
      fun _ ↦ ?_
    · obtain ⟨-, -, rfl⟩ := hw
      exact .cancels ht
    refine Prog.Triple.guard_bind (M := fun _ ↦ Alone i Session.Doomed) (.guard_modify hcancelled
      halone (fun w hw ↦ ?_) fun w hR hw hjoins ↦ ?_) fun _ ↦ ?_
    · obtain ⟨⟨-, -, rfl⟩, hcancelled⟩ := hw
      exact .joins ht hcancelled
    · obtain ⟨⟨hpursued, hused, rfl⟩, -⟩ := hw
      have hjoined := hR.orderly.alone_joinThread (i := i)
      refine ⟨hused, hjoined, ?_⟩
      by_cases hthread : w.HasThread i
      · exact hjoins hthread hjoined
      · exact hpursued.doomed hthread
    refine Prog.Triple.guard_bind (Prog.Triple.guard (.modify halone halone
      (fun w hw ↦ .forgets hw.alone) fun w hw ↦ ?_)) fun _ ↦ doomed_stopAndRelease.guard
    refine ⟨?_, hw.alone, ?_⟩ <;> rw [World.session_modifySession_self]
    · exact hw.used
    · exact hw.session
  · intro w hw
    refine Prog.Sat.of_rely fun w' hR ↦ doomed_stopAndRelease.guard w' ?_
    obtain ⟨hpursued, hused, hthread⟩ := hremembers t w w' hR hw
    -- no thread is on record, so there is none
    have halone' := hR.orderly.alone_of_zero (hthread.trans (not_not.mp ht))
    exact ⟨hused, halone', hpursued.doomed halone'⟩

end Stop

/-! ## Visits that abort -/

/-- What is left of a visit gives slot `i` back, if it joins no thread of a session that is not
doomed. -/
def GivesBack (i : Slot) (p : SessionProg Bool) (w : World) : Prop :=
  (p.guard (JoinsDoomed i)).Sat (Pursues i) (SupervisorStep i) (fun _ _ ↦ False) w

section Visit

variable {i k : Slot} {w w' : World}

theorem Puts.not_aborts (h : Puts (· ≠ .aborting) k w w') : ¬ Aborts i w w' := by
  rintro ⟨hbefore, hafter⟩
  rcases h.state i with hsame | ⟨-, hne⟩
  · exact hbefore (hsame.symm.trans hafter)
  · exact hne hafter

theorem Tends.not_aborts (h : Tends w w') : ¬ Aborts i w w' := fun haborts ↦
  haborts.1 ((unmoved_state _ _ (h.session i)).symm.trans haborts.2)

theorem not_aborts_self (w : World) : ¬ Aborts i w w := fun h ↦ h.1 h.2

theorem spares_of_puts {α : Type} {p : SessionProg α} (h : p.Within (PutsAt (· ≠ .aborting) k)) :
    p.Within fun w w' ↦ ¬ Aborts i w w' := h.mono fun _ _ h ↦ h.not_aborts

theorem givesBack_orderStop (g : Unit → SessionProg Bool) :
    GivesBack i ((do
      modifySession i ({ · with intervalCounter := 0 })
      pcapsessionStop i) >>= g) (w.setState i .aborting) := by
  have hpursued : Pursued i (w.setState i .aborting) := by
    refine ⟨inUse_setState nofun, fun _ ↦ .inl ?_⟩
    rw [World.state_setState]
  have hreset : Prog.Triple (Pursues i) (SupervisorStep i) (Pursued i)
      (modifySession i ({ · with intervalCounter := 0 })) fun _ ↦ Pursued i := by
    refine .modify Pursued.stable Pursued.stable (fun w _ ↦ .counts 0) fun w hw ↦
      ⟨?_, fun halone ↦ ?_⟩
    · rw [InUse, World.session_modifySession_self]
      exact hw.used
    · rw [World.session_modifySession_self]
      exact hw.doomed halone
  have hstop : Prog.Triple (Pursues i) (SupervisorStep i) (Pursued i)
      ((do
        modifySession i ({ · with intervalCounter := 0 })
        pcapsessionStop i).guard (JoinsDoomed i)) fun _ _ ↦ False :=
    .guard_bind hreset.guard fun _ ↦ doomed_pcapsessionStop
  exact Prog.Triple.guard_bind (g := g) hstop (fun _ _ h ↦ h.elim) _ hpursued

/-- **Whatever slot is visited**, a visit that writes `ABORTING` gives the slot back. -/
theorem leads_superviseSession : (superviseSession k).Leads (Aborts i) (GivesBack i) := by
  have hread : ∀ {β : Type} (g : World → β), (Prog.read g : SessionProg β).Within
      fun w w' ↦ ¬ Aborts i w w' := fun g ↦
    ⟨fun w _ h ↦ Option.some.inj h ▸ not_aborts_self w, fun _ ↦ trivial⟩
  have htends : (tendSession k).Leads (Aborts i) (GivesBack i) :=
    ((within_tendSession k).mono fun _ _ h ↦ h.not_aborts).leads
  refine (hread _).leads_bind fun state ↦ .ite trivial ?_
  refine (spares_of_puts (puts_of_writes (writes_orderAbort (by decide)))).leads_bind fun _ ↦
    (spares_of_puts (puts_of_writes (writes_checkDescriptor (by decide)))).leads_bind fun _ ↦ ?_
  change (pcapsessionTransitionSession k >>= fun _ ↦ tendSession k).Leads _ _
  rw [pcapsessionTransitionSession_eq, bind_assoc]
  refine (hread _).leads_bind fun state ↦ ?_
  by_cases hstate : state = .abort
  · subst hstate
    change (Prog.modify (·.setState k .aborting) >>= fun _ ↦ (do
      modifySession k ({ · with intervalCounter := 0 })
      pcapsessionStop k) >>= fun _ ↦ tendSession k).Leads _ _
    refine .modify_bind (fun w haborts ↦ ?_) ?_
    · -- Only the slot that is visited is aborted.
      have hik : i = k := by
        by_contra hik
        refine haborts.1 ?_
        rw [← haborts.2, World.setState, World.session_modifySession_of_ne _ hik]
      subst hik
      exact givesBack_orderStop _
    · refine (spares_of_puts (k := k) ?_).leads_bind fun _ ↦ htends
      refine puts_of_writes (writes_resetInterval.bind fun _ ↦ ?_)
      exact writes_pcapsessionStop (by decide) (by decide) (by decide)
  · refine (spares_of_puts (k := k) (puts_of_writes ?_)).leads_bind fun _ ↦ htends
    exact writes_transitionFrom (fun _ h ↦ h) fun h ↦ absurd h hstate

end Visit

/-! ## Runs -/

/-- Wherever the visit writes `ABORTING`, it gives the slot back. -/
def abortDiscipline : Discipline where
  inv := fun _ ↦ True
  visit := fun p _ ↦ ∀ i, p.Leads (Aborts i) (GivesBack i)
  thread := fun _ _ _ _ _ ↦ True

theorem abortDiscipline_lawful : abortDiscipline.Lawful fun _ _ ↦ True where
  opens := fun hc _ _ ↦ ⟨trivial, hc.visit, fun _ ↦ trivial⟩
  visits := fun _ _ _ _ ↦ leads_superviseSession
  supervises := fun hc _ _ hnext ↦
    ⟨trivial, fun i ↦ ((hc.visit i).next not_aborts_self hnext).2, fun _ ↦ trivial⟩
  creates := fun _ _ _ _ _ ↦ trivial
  runs := fun hc _ _ _ _ _ ↦ ⟨trivial, hc.visit, trivial, fun _ _ _ ↦ trivial⟩
  delivers := fun _ _ _ _ _ ↦ trivial
  ends := fun _ _ _ ↦ trivial
  closes := fun hc ↦ ⟨trivial, hc.visit, fun _ ↦ trivial⟩

/-- Slot `i` is being aborted: it is in use, and the visit is going to give it back. -/
structure Machine.Aborting (c : Machine) (i : Slot) : Prop where
  /-- The configuration is sound. -/
  sound : c.Sound
  /-- The slot has not been given back yet. -/
  used : InUse i c.world
  /-- The visit gives it back. -/
  visit : GivesBack i c.visit c.world

section Runs

variable {c c' : Machine} {i : Slot} {a : Action} {w' : World}

theorem Machine.Aborting.pursues (h : c.Aborting i) : Pursues i c.world c.world :=
  ⟨h.sound.orderly.attends, h.used, id⟩

theorem Machine.Aborting.beside {pool : ℕ → SessionProg Unit} (h : c.Aborting i)
    (hsound : Machine.Sound ⟨w', c.visit, pool⟩) (hbeside : Beside i c.world w')
    (hthreads : w'.threads = c.world.threads) : Machine.Aborting ⟨w', c.visit, pool⟩ i := by
  have hpursues : Pursues i c.world w' := by
    refine ⟨⟨hbeside, hsound.orderly⟩, h.used, ?_⟩
    rw [World.HasThread, World.HasThread, hthreads]
    exact id
  exact ⟨hsound, InUse.stable _ _ hpursues.toAttends h.used, h.visit.rely hpursues⟩

theorem SupervisorStep.stopped_of_release {w : World} (h : SupervisorStep i w w')
    (hused : InUse i w) (hunused : (w'.session i).state = .unused) :
    (w.session i).state = .stopped := by
  have hturn := h.turn (j := i)
  rw [hunused] at hturn
  cases hstate : (w.session i).state with
  | stopped => rfl
  | unused => exact absurd hstate hused
  | _ =>
    generalize hnew : SessionState.unused = newState at hturn
    cases hturn with
    | stays => exact absurd hnew.symm hused
    | opens h => cases hnew
    | writes _ _ h => rcases h with rfl | rfl <;> cases hnew
    | orders _ _ h => rcases h with rfl | rfl | ⟨rfl | rfl, -⟩ <;> cases hnew
    | starts h => cases hnew
    | decides m _ hm =>
      rcases (w.session i).stateAfterStop_cases m with h | h <;> rw [h] at hnew <;> cases hnew
    | releases h => exact absurd (hstate.symm.trans h) nofun

/-- **One action** goes on with the abort, or gives the slot of the stopped session back. -/
theorem Machine.Aborting.step (h : c.Aborting i) (ha : ∀ k, a ≠ .visits k)
    (hjoins : JoinsDoomed i c.world c'.world) (hstep : c.step a = some c') :
    c'.Aborting i ∨ (∃ z, a = .supervises z) ∧ (c.world.session i).state = .stopped ∧
      (c'.world.session i).state = .unused := by
  have hsound' := (h.sound.step hstep).2
  cases a with
  | opens call answer =>
    obtain ⟨r, w', hexec, rfl⟩ := Machine.opens_cases hstep
    have heffect := openEffect_of_exec hexec
    exact .inl (h.beside hsound' heffect.beside heffect.rest.2.2.2.1)
  | visits k => exact absurd rfl (ha k)
  | supervises z =>
    obtain ⟨p, w', hnext, -, rfl⟩ := Machine.supervises_cases hstep
    obtain ⟨hG, hrest⟩ := h.visit.step_of h.pursues ((Prog.step_of_next hnext).guard hjoins)
    have hsupervises : SupervisorStep i c.world w' := by
      rcases hG with hG | rfl
      · exact hG
      · exact .pauses
    by_cases hused : InUse i w'
    · exact .inl ⟨hsound', hused, hrest⟩
    · have hunused : (w'.session i).state = .unused := not_not.mp hused
      exact .inr ⟨⟨z, rfl⟩, hsupervises.stopped_of_release h.used hunused, hunused⟩
  | runs t z =>
    obtain ⟨k, m, p, w', -, ht, hnext, rfl⟩ := Machine.runs_cases hstep
    have hthread := (h.sound.runs ht hnext).1
    exact .inl (h.beside hsound' (hthread.beside ht h.sound.orderly.lifecycle) hthread.threads)
  | delivers t p =>
    obtain ⟨x, -, -, rfl⟩ := Machine.delivers_cases hstep
    exact .inl (h.beside hsound' (.refl i _) rfl)
  | ends t =>
    obtain ⟨k, m, -, -, rfl⟩ := Machine.ends_cases hstep
    exact .inl (h.beside hsound' (.refl i _) rfl)
  | closes =>
    cases hstep
    exact .inl (h.beside hsound' beside_closes rfl)

theorem Machine.Aborting.not_returned (h : c.Aborting i) : c.visit.returned = false := by
  have hvisit := h.visit
  rw [GivesBack] at hvisit
  cases hc : c.visit with
  | ret counted =>
    rw [hc] at hvisit
    exact (hvisit c.world h.pursues).elim
  | act f k => rfl
  | ask q k => rfl

/-- **A run** in which slot `i` is aborted until the visit returns gives the slot back. -/
theorem Machine.Aborting.run {as : List Action} (h : c.Aborting i) (hrun : c.run as = some c')
    (hsame : ∀ k, .visits k ∉ as)
    (hjoins : ∀ as₁ a as₂ c₁ c₂, as = as₁ ++ a :: as₂ → c.run as₁ = some c₁ →
      c₁.step a = some c₂ → JoinsDoomed i c₁.world c₂.world)
    (hreturned : c'.visit.returned = true) :
    ∃ as₁ z as₂ c₁ c₂, as = as₁ ++ .supervises z :: as₂ ∧ c.run as₁ = some c₁ ∧
      c₁.step (.supervises z) = some c₂ ∧ (c₁.world.session i).state = .stopped ∧
      (c₂.world.session i).state = .unused ∧ ∀ as₃ as₄ c₃, as₁ = as₃ ++ as₄ →
        c.run as₃ = some c₃ → (c₃.world.session i).state ≠ .unused := by
  induction as generalizing c with
  | nil =>
    cases hrun
    rw [h.not_returned] at hreturned
    cases hreturned
  | cons a as ih =>
    rw [Machine.run_cons, Option.bind_eq_some_iff] at hrun
    obtain ⟨c₀, hstep, hrun⟩ := hrun
    have ha : ∀ k, a ≠ .visits k := fun k hk ↦ hsame k (hk ▸ List.mem_cons_self)
    rcases h.step ha (hjoins [] a as c c₀ rfl rfl hstep) hstep with
      hc₀ | ⟨⟨z, rfl⟩, hstopped, hunused⟩
    · -- The abort goes on: the slot is given back later.
      have hlater : ∀ {as₁ c₁}, c₀.run as₁ = some c₁ → c.run (a :: as₁) = some c₁ := fun h₁ ↦ by
        rw [Machine.run_cons, hstep, Option.bind_some, h₁]
      obtain ⟨as₁, z, as₂, c₁, c₂, rfl, hrun₁, hstep₁, hstopped, hunused, hused⟩ :=
        ih hc₀ hrun (fun k hk ↦ hsame k (List.mem_cons_of_mem a hk))
          fun as₁ a' as₂ c₁ c₂ has hrun₁ hstep₁ ↦
            hjoins (a :: as₁) a' as₂ c₁ c₂ (by rw [has, List.cons_append]) (hlater hrun₁) hstep₁
      refine ⟨a :: as₁, z, as₂, c₁, c₂, rfl, hlater hrun₁, hstep₁, hstopped, hunused, ?_⟩
      intro as₃ as₄ c₃ has hrun₃
      cases as₃ with
      | nil =>
        cases hrun₃
        exact h.used
      | cons b as₃ =>
        obtain ⟨rfl, htail⟩ := List.cons.inj has
        rw [Machine.run_cons, hstep, Option.bind_some] at hrun₃
        exact hused as₃ as₄ c₃ htail hrun₃
    · refine ⟨[], z, as, c, c₀, rfl, rfl, hstep, hstopped, hunused, ?_⟩
      intro as₃ as₄ c₃ has hrun₃
      obtain ⟨rfl, -⟩ := List.append_eq_nil_iff.mp has.symm
      cases hrun₃
      exact h.used

end Runs

/-- **An abort is not turned into a restart**, when the thread of the session is joined only if the
session is doomed then: the session is found stopped, and the visit gives its slot back. -/
theorem abort_ends_session (as as' : List Action) (c c₀ c' : Machine) (z : ℤ) (i : Slot)
    (hrun : Machine.init.run as = some c) (hstep : c.step (.supervises z) = some c₀)
    (haborts : Aborts i c.world c₀.world) (hrun' : c₀.run as' = some c')
    (hsame : ∀ k, .visits k ∉ as') (hreturned : c'.visit.returned = true)
    (hjoins : ∀ as₁ a as₂ c₁ c₂, as' = as₁ ++ a :: as₂ → c₀.run as₁ = some c₁ →
      c₁.step a = some c₂ → JoinsDoomed i c₁.world c₂.world) :
    ∃ as₁ z' as₂ c₁ c₂, as' = as₁ ++ .supervises z' :: as₂ ∧ c₀.run as₁ = some c₁ ∧
      c₁.step (.supervises z') = some c₂ ∧ (c₁.world.session i).state = .stopped ∧
      (c₂.world.session i).state = .unused ∧ ∀ as₃ as₄ c₃, as₁ = as₃ ++ as₄ →
        c₀.run as₃ = some c₃ → (c₃.world.session i).state ≠ .unused := by
  have hinit : abortDiscipline.Kept Machine.init :=
    ⟨Machine.sound_init, trivial, fun _ ↦ trivial, nofun⟩
  have hkept := abortDiscipline_lawful.run hinit (fun _ _ _ _ _ _ _ _ ↦ trivial) hrun
  have hsound := (hkept.sound.step hstep).2
  obtain ⟨p, w', hnext, -, rfl⟩ := Machine.supervises_cases hstep
  have hgives := ((hkept.visit i).next not_aborts_self hnext).1 haborts
  have hused : InUse i w' := by
    rw [InUse, haborts.2]
    decide
  exact Machine.Aborting.run ⟨hsound, hused, hgives⟩ hrun' hsame hjoins hreturned

theorem Machine.Sound.joinsDoomed {c : Machine} {w' : World} {i : Slot} (h : c.Sound)
    (hjoins : (c.world.session i).state = .aborting ∨
      ∀ t < c.world.nextThread, w'.threads t = c.world.threads t) : JoinsDoomed i c.world w' := by
  rintro ⟨t, m, ht⟩ halone
  rcases hjoins with hstate | hsame
  · exact .inl hstate
  · refine absurd ⟨t, m, ?_⟩ halone
    rw [hsame t (h.orderly.thread_lt ht), ht]

/-- A client that is connecting is aborted. -/
theorem abort_ends_session_client :
    ∃ as as' c c₀ c', Machine.init.run as = some c ∧ c.step (.supervises 0) = some c₀ ∧
      Aborts 0 c.world c₀.world ∧ c₀.run as' = some c' ∧ c'.visit.returned = true ∧
      ∃ as₁ z' as₂ c₁ c₂, as' = as₁ ++ .supervises z' :: as₂ ∧ c₀.run as₁ = some c₁ ∧
        c₁.step (.supervises z') = some c₂ ∧ (c₁.world.session 0).state = .stopped ∧
        (c₂.world.session 0).state = .unused ∧ ∀ as₃ as₄ c₃, as₁ = as₃ ++ as₄ →
          c₀.run as₃ = some c₃ → (c₃.world.session 0).state ≠ .unused := by
  let as : List Action := [[.opens (.client none) fun _ ↦ 0], silentVisit 0 12, silentRuns 1 1,
    [.closes], silentVisit 0 8].flatten
  let as' : List Action :=
    List.replicate 3 (.supervises 0) ++ .ends 1 :: List.replicate 12 (.supervises 0)
  let all := as ++ .supervises 0 :: as'
  have hruns : ((Machine.init.run as).bind fun c ↦ (c.step (.supervises 0)).bind fun c₀ ↦
      (c₀.run as').map fun c' ↦ (decide (Aborts 0 c.world c₀.world), c'.visit.returned))
      = some (true, true) := by
    decide +kernel
  have hsteps : ∀ n < all.length, ((Machine.init.run (all.take n)).bind fun c₁ ↦
      (Machine.init.run (all.take (n + 1))).map fun c₂ ↦ decide
        ((c₁.world.session 0).state = .aborting ∨
          ∀ t < c₁.world.nextThread, c₂.world.threads t = c₁.world.threads t)) = some true := by
    decide +kernel
  obtain ⟨c, hrun, hrest⟩ := Option.bind_eq_some_iff.mp hruns
  obtain ⟨c₀, hstep, hrest⟩ := Option.bind_eq_some_iff.mp hrest
  obtain ⟨c', hrun', hresult⟩ := Option.map_eq_some_iff.mp hrest
  rw [Prod.mk.injEq, decide_eq_true_eq] at hresult
  obtain ⟨haborts, hreturned⟩ := hresult
  refine ⟨as, as', c, c₀, c', hrun, hstep, haborts, hrun', hreturned, ?_⟩
  refine abort_ends_session as as' c c₀ c' 0 0 hrun hstep haborts hrun' ?_ hreturned ?_
  · intro k hk
    simp [as'] at hk
  · intro as₁ a as₂ c₁ c₂ has hrun₁ hstep₁
    have hrun₁' : Machine.init.run (as ++ .supervises 0 :: as₁) = some c₁ := by
      rw [Machine.run_append, hrun, Option.bind_some, Machine.run_cons, hstep,
        Option.bind_some, hrun₁]
    refine (Machine.sound_of_run hrun₁').joinsDoomed ?_
    have hall : all = (as ++ .supervises 0 :: as₁) ++ a :: as₂ := by
      rw [List.append_assoc, List.cons_append, ← has]
    exact Machine.all_steps_of_take (p := fun c₁ c₂ ↦ (c₁.world.session 0).state = .aborting ∨
      ∀ t < c₁.world.nextThread, c₂.world.threads t = c₁.world.threads t) hsteps hall hrun₁' hstep₁

/-- A client whose thread begins when the visit has written `ABORTING` is started again. -/
theorem abort_restarts_client :
    ∃ as as' c c₀ c', Machine.init.run as = some c ∧ c.step (.supervises 0) = some c₀ ∧
      Aborts 0 c.world c₀.world ∧ c₀.run as' = some c' ∧ (∀ k, .visits k ∉ as') ∧
      c'.visit.returned = true ∧ (c'.world.session 0).state = .start ∧
      ∀ as₁ as₂ c₁, as' = as₁ ++ as₂ → c₀.run as₁ = some c₁ →
        (c₁.world.session 0).state ≠ .stopped ∧ (c₁.world.session 0).state ≠ .unused := by
  let as : List Action :=
    [[.opens (.client none) fun _ ↦ 0], silentVisit 0 12, [.closes], silentVisit 0 8].flatten
  let as' : List Action := .runs 1 0 ::
    (List.replicate 3 (.supervises 0) ++ .ends 1 :: List.replicate 11 (.supervises 0))
  have hruns : ((Machine.init.run as).bind fun c ↦ (c.step (.supervises 0)).bind fun c₀ ↦
      (c₀.run as').map fun c' ↦ (decide (Aborts 0 c.world c₀.world), c'.visit.returned,
        (c'.world.session 0).state)) = some (true, true, .start) := by
    decide +kernel
  have hstates : ∀ n ≤ as'.length, (((Machine.init.run as).bind (·.step (.supervises 0))).bind
      (·.run (as'.take n))).all (fun c ↦
        (c.world.session 0).state ≠ .stopped ∧ (c.world.session 0).state ≠ .unused) = true := by
    decide +kernel
  obtain ⟨c, hrun, hrest⟩ := Option.bind_eq_some_iff.mp hruns
  obtain ⟨c₀, hstep, hrest⟩ := Option.bind_eq_some_iff.mp hrest
  obtain ⟨c', hrun', hresult⟩ := Option.map_eq_some_iff.mp hrest
  rw [Prod.mk.injEq, Prod.mk.injEq, decide_eq_true_eq] at hresult
  obtain ⟨haborts, hreturned, hstart⟩ := hresult
  refine ⟨as, as', c, c₀, c', hrun, hstep, haborts, hrun', ?_, hreturned, hstart, ?_⟩
  · intro k hk
    simp [as'] at hk
  · intro as₁ as₂ c₁ has hrun₁
    rw [hrun, Option.bind_some, hstep] at hstates
    exact Machine.all_of_take (p := fun c ↦ (c.world.session 0).state ≠ .stopped ∧
      (c.world.session 0).state ≠ .unused) hstates has hrun₁

end DistributorMerger
