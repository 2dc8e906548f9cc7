import DistributorMerger.Session.Deeds

/-!
# Disciplines

A discipline says what is kept between any two statements: of the world, of what is left of the
supervisor's visit, and of what each thread has still to execute. It is lawful when the actions keep
it, each party for itself and for the others; then it is kept in every run.

A discipline may be kept only in the runs whose actions are permitted. What is permitted is said of
the configuration before an action and the world after it.
-/

namespace DistributorMerger

/-- What is kept between any two statements. -/
structure Discipline where
  /-- What is true of the world. -/
  inv : World → Prop
  /-- What is true of the rest of the visit. -/
  visit : SessionProg Bool → World → Prop
  /-- What is true of the program of a thread, which was created for a slot and a module. -/
  thread : ℕ → Slot → Module → SessionProg Unit → World → Prop

/-- The discipline is kept in a configuration. -/
structure Discipline.Kept (D : Discipline) (c : Machine) : Prop where
  /-- The configuration is sound. -/
  sound : c.Sound
  /-- The world. -/
  inv : D.inv c.world
  /-- The visit. -/
  visit : D.visit c.visit c.world
  /-- The threads. -/
  thread : ∀ {t i m}, c.world.threads t = some (i, m) → D.thread t i m (c.pool t) c.world

/-- The discipline is kept when the world becomes `w'` and nobody has made a step. -/
structure Discipline.Endures (D : Discipline) (c : Machine) (w' : World) : Prop where
  /-- The world. -/
  inv : D.inv w'
  /-- The visit. -/
  visit : D.visit c.visit w'
  /-- The threads. -/
  thread : ∀ {t i m}, c.world.threads t = some (i, m) → D.thread t i m (c.pool t) w'

/-- Permitted actions keep the discipline. -/
structure Discipline.Lawful (D : Discipline) (permitted : Machine → World → Prop) : Prop where
  /-- Open functions. -/
  opens : ∀ {c w'}, D.Kept c → permitted c w' → OpenEffect c.world w' → D.Endures c w'
  /-- The beginning of a visit. -/
  visits : ∀ {c}, D.Kept c → Quiet c.world → ∀ i, D.visit (superviseSession i) c.world
  /-- A statement of the visit. -/
  supervises : ∀ {c w' i z p}, D.Kept c → permitted c w' → SupervisorStep i c.world w' →
    c.visit.next z c.world = some (p, w') → D.inv w' ∧ D.visit p w' ∧
      ∀ {t j m}, c.world.threads t = some (j, m) → D.thread t j m (c.pool t) w'
  /-- A thread that is created. -/
  creates : ∀ {c i m}, D.Kept c → permitted c (c.world.createThread i m) →
    ¬ c.world.HasThread i → (c.world.session i).state = .starting →
    (c.world.session i).module = some m →
    D.thread c.world.nextThread i m (runner m i) (c.world.createThread i m)
  /-- A statement of a thread. -/
  runs : ∀ {c w' t i m z p}, D.Kept c → permitted c w' → c.Alive t →
    c.world.threads t = some (i, m) → ThreadStep i m c.world w' →
    (c.pool t).next z c.world = some (p, w') →
    D.inv w' ∧ D.visit c.visit w' ∧ D.thread t i m p w' ∧
      ∀ {t' j m'}, c.world.threads t' = some (j, m') → t' ≠ t → j ≠ i →
        D.thread t' j m' (c.pool t') w'
  /-- The delivery of a packet. -/
  delivers : ∀ {c t i m k p handler}, D.Kept c → c.Alive t → c.world.threads t = some (i, m) →
    c.pool t = .ask .pcapLoop k → packetHandler i p m = some handler →
    D.thread t i m (handler >>= fun _ ↦ .ask .pcapLoop k) c.world
  /-- The end of a cancelled thread. -/
  ends : ∀ {c t i m}, D.Kept c → c.MayEnd t → c.world.threads t = some (i, m) →
    D.thread t i m (.ret ()) c.world
  /-- The shutdown. -/
  closes : ∀ {c}, D.Kept c → D.Endures c { c.world with handlingState := .terminating }

section Lawful

variable {D : Discipline} {permitted : Machine → World → Prop} {c c' : Machine} {a : Action}

theorem Machine.Sound.supervised (h : c.Sound) {z : ℤ} (hstep : c.step (.supervises z) = some c') :
    ∃ i, SupervisorStep i c.world c'.world := by
  obtain ⟨p, w', hnext, -, rfl⟩ := Machine.supervises_cases hstep
  exact (h.supervises hnext).1

/-- **One permitted action keeps a lawful discipline.** -/
theorem Discipline.Lawful.step (h : D.Lawful permitted) (hc : D.Kept c)
    (hpermitted : permitted c c'.world) (hstep : c.step a = some c') : D.Kept c' := by
  have hsound : c'.Sound := (hc.sound.step hstep).2
  cases a with
  | opens call answer =>
    obtain ⟨r, w', hexec, rfl⟩ := Machine.opens_cases hstep
    have heffect := openEffect_of_exec hexec
    have hendures := h.opens hc hpermitted heffect
    refine ⟨hsound, hendures.inv, hendures.visit, fun {t i m} ht ↦ hendures.thread ?_⟩
    rw [← heffect.rest.2.2.2.1]
    exact ht
  | visits i =>
    obtain ⟨hreturned, rfl⟩ := Machine.visits_cases hstep
    exact ⟨hsound, hc.inv, h.visits hc (hc.sound.quiet hreturned) i, hc.thread⟩
  | supervises z =>
    obtain ⟨p, w', hnext, -, rfl⟩ := Machine.supervises_cases hstep
    obtain ⟨⟨i, hsupervises⟩, -⟩ := hc.sound.supervises hnext
    obtain ⟨hinv, hvisit, hthread⟩ := h.supervises hc hpermitted hsupervises hnext
    refine ⟨hsound, hinv, hvisit, fun {t j m} ht ↦ ?_⟩
    change D.thread t j m (spawned c.world w' c.pool t) w'
    -- a thread was there before, or the step has created it
    rcases hsupervises.thread_cases ht with hold | ⟨rfl, rfl, rfl, halone, hstate, -⟩
    · rw [spawned_of_some hold]
      exact hthread hold
    · rw [spawned_createThread hc.sound.orderly]
      have hm : (c.world.session j).module = some m := by
        have hm' := hsound.orderly.thread_module ht
        rwa [World.session_createThread_self] at hm'
      exact h.creates hc hpermitted halone hstate hm
  | runs t z =>
    obtain ⟨i, m, p, w', halive, ht, hnext, rfl⟩ := Machine.runs_cases hstep
    have hthread := (hc.sound.runs ht hnext).1
    obtain ⟨hinv, hvisit, hown, hothers⟩ := h.runs hc hpermitted halive ht hthread hnext
    refine ⟨hsound, hinv, hvisit, fun {t' j m'} ht' ↦ ?_⟩
    have hold : c.world.threads t' = some (j, m') := hthread.threads ▸ ht'
    change D.thread t' j m' (Function.update c.pool t p t') w'
    -- the thread that ran, and the others
    by_cases htt : t' = t
    · obtain ⟨rfl, rfl⟩ := Prod.mk.inj (Option.some.inj ((htt ▸ hold).symm.trans ht))
      rw [htt, Function.update_self]
      exact hown
    · rw [Function.update_of_ne htt]
      refine hothers hold htt ?_
      rintro rfl
      exact htt (hc.sound.orderly.thread_unique ht hold)
  | delivers t p =>
    obtain ⟨x, halive, hx, rfl⟩ := Machine.delivers_cases hstep
    obtain ⟨i, m, k, handler, ht, hpool, hhandler, rfl⟩ := Machine.delivered_cases hx
    refine ⟨hsound, hc.inv, hc.visit, fun {t' j m'} ht' ↦ ?_⟩
    change D.thread t' j m' (Function.update c.pool t _ t') c.world
    by_cases htt : t' = t
    · subst htt
      obtain ⟨rfl, rfl⟩ := Prod.mk.inj (Option.some.inj (ht.symm.trans ht'))
      rw [Function.update_self]
      exact h.delivers hc halive ht hpool hhandler
    · rw [Function.update_of_ne htt]
      exact hc.thread ht'
  | ends t =>
    obtain ⟨i, m, hends, ht, rfl⟩ := Machine.ends_cases hstep
    refine ⟨hsound, hc.inv, hc.visit, fun {t' j m'} ht' ↦ ?_⟩
    change D.thread t' j m' (Function.update c.pool t (.ret ()) t') c.world
    by_cases htt : t' = t
    · subst htt
      rw [Function.update_self]
      exact h.ends hc hends ht'
    · rw [Function.update_of_ne htt]
      exact hc.thread ht'
  | closes =>
    cases hstep
    have hendures := h.closes hc
    exact ⟨hsound, hendures.inv, hendures.visit, hendures.thread⟩

/-- **A run of permitted actions keeps a lawful discipline.** -/
theorem Discipline.Lawful.run (h : D.Lawful permitted) {as : List Action} (hc : D.Kept c)
    (hpermitted : ∀ as₁ a as₂ c₁ c₂, as = as₁ ++ a :: as₂ → c.run as₁ = some c₁ →
      c₁.step a = some c₂ → permitted c₁ c₂.world) (hrun : c.run as = some c') : D.Kept c' := by
  refine Machine.run_induction (P := fun c₁ a ↦ ∀ c₂, c₁.step a = some c₂ → permitted c₁ c₂.world)
    (fun c₁ a c₂ hc₁ hP hstep ↦ h.step hc₁ (hP c₂ hstep) hstep) ?_ hc hrun
  intro as₁ a as₂ c₁ has hrun₁ c₂ hstep
  exact hpermitted as₁ a as₂ c₁ c₂ has hrun₁ hstep

end Lawful

end DistributorMerger
