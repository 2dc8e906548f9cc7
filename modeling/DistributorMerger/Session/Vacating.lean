import DistributorMerger.Session.Liveness

/-!
# Giving slots back

The slots of a distributer are few, and every connection that is accepted takes one. A connection
that is not served does not keep its slot: whatever its thread does, be it that it never runs, that
it cannot open a dumper or that its peer goes away, thirteen visits are enough for one to find the
session running with its descriptor open, or to leave the slot vacant.
-/

namespace DistributorMerger

/-- How many visits may pass before a connection is found served or its slot is left vacant. -/
def Session.untilVacated (s : Session) : ℕ :=
  match s.state with
  | .start => pcapSessionSupervisionTransitionIntervals + 2
  | .starting => pcapSessionSupervisionTransitionIntervals - s.intervalCounter + 1
  | _ => 0

/-- The visit finds the session served: it runs, and its descriptor is not lost. -/
def World.Served (w : World) (answer : Query → ℤ) (j : Slot) : Prop :=
  (w.session j).state = .running ∧ ¬ w.Lost answer j

/-- Nothing of the session in the slot is left: it has no thread, and it is not on the list of
clients. -/
structure World.Vacant (w : World) (j : Slot) : Prop where
  /-- The slot can be handed out. -/
  unused : (w.session j).state = .unused
  /-- The thread has been joined. -/
  noThread : ¬ w.HasThread j
  /-- No packets are dumped for the slot. -/
  notListed : w.clientconnlist j = none

section Vacating

variable {c c' : System} {e : Event} {w' : World} {j : Slot} {answer : Query → ℤ}

theorem Session.untilVacated_le (s : Session) : s.untilVacated ≤ 12 := by
  unfold Session.untilVacated
  have hle : pcapSessionSupervisionTransitionIntervals - s.intervalCounter ≤ 10 := Nat.sub_le _ _
  split
  · decide
  · omega
  · exact Nat.zero_le _

theorem VisitEffect.untilVacated (h : VisitEffect answer j c.world w')
    (hc : c.Hosting j .clientconn) (hrunning : c.world.handlingState = .running)
    (hserved : ¬ c.world.Served answer j)
    (hvacated : ¬ ((w'.session j).state = .unused ∧ w'.clientconnlist j = none)) :
    (w'.session j).state ≠ .unused ∧ (w'.session j).module = some .clientconn ∧
      (w'.session j).untilVacated + 1 ≤ (c.world.session j).untilVacated := by
  cases h with
  | skipped hunused => exact absurd hunused hc.used
  | tended _ horder =>
    rcases horder with horder | horder
    · refine absurd ⟨hc.sound.state_of_order hrunning horder (by decide), fun hlost ↦ ?_⟩ hserved
      rw [World.orderedState, if_pos hlost] at horder
      cases horder
    · exact absurd (hc.sound.state_of_order hrunning horder (by decide)) (hc.sound.notStopped j)
  | started m horder =>
    have hstate := hc.sound.state_of_order hrunning horder (by decide)
    rw [World.session_createThread_self, World.session_startOrdered_self]
    refine ⟨show SessionState.starting ≠ .unused by decide, hc.module, ?_⟩
    simp only [Session.untilVacated, hstate]
    omega
  | startFailed m horder =>
    have hstate := hc.sound.state_of_order hrunning horder (by decide)
    rw [World.session_startOrdered_self]
    refine ⟨show SessionState.starting ≠ .unused by decide, hc.module, ?_⟩
    simp only [Session.untilVacated, hstate]
    omega
  | waited horder hcount =>
    have hstate := hc.sound.state_of_order hrunning horder (by decide)
    rw [World.session_modifySession_self]
    refine ⟨hc.used, hc.module, ?_⟩
    simp only [Session.untilVacated, hstate]
    omega
  | timedOut horder hcount =>
    have hstate := hc.sound.state_of_order hrunning horder (by decide)
    rw [World.setState, World.session_modifySession_self]
    refine ⟨show SessionState.terminate ≠ .unused by decide, hc.module, ?_⟩
    simp only [Session.untilVacated, hstate]
    omega
  | stopped m newState horder hused hm =>
    obtain rfl := Option.some.inj (hc.module.symm.trans hm)
    refine absurd ⟨?_, ?_⟩ hvacated
    · rw [World.session_stopAs_self, Session.state_stopAs_clientconn]
    · rw [World.stopAs_rest]
      exact Function.update_self ..

theorem EventEffect.untilVacated (h : EventEffect c e w') (hc : c.Hosting j .clientconn)
    (hvisit : e.visitsSlot j = false) :
    (w'.session j).state ≠ .unused ∧ (w'.session j).module = some .clientconn ∧
      (w'.session j).untilVacated ≤ (c.world.session j).untilVacated := by
  obtain ⟨hmodule, ⟨hstate, hcounter⟩ | ⟨hnew, -⟩⟩ := h.reports hc hvisit
  · rw [Session.untilVacated, Session.untilVacated, hstate, hcounter]
    exact ⟨hstate ▸ hc.used, hmodule, le_refl _⟩
  · refine ⟨by rcases hnew with hnew | hnew <;> rw [hnew] <;> decide, hmodule, ?_⟩
    rcases hnew with hnew | hnew <;> rw [Session.untilVacated, hnew] <;> exact Nat.zero_le _

/-- What a step brings about while session handling is running: the connection keeps its slot, and a
visit that does not find it served brings it closer to giving the slot back. -/
theorem System.Hosting.vacates (c : System) (e : Event) (c' : System)
    (hc : c.Hosting j .clientconn) (hrunning : c.world.handlingState = .running)
    (hstep : c.step e = some c')
    (hgoal : ¬ (e.visitsSlot j = true ∧ c.Hosting j .clientconn ∧ ∃ answer,
      e = .visits j answer ∧ (c.world.Served answer j ∨ c'.world.Vacant j))) :
    c'.Hosting j .clientconn ∧ (c'.world.session j).untilVacated
      + (if e.visitsSlot j then 1 else 0) ≤ (c.world.session j).untilVacated := by
  obtain ⟨heffect, hsound⟩ := hc.sound.step hstep
  have hservers := heffect.servers hc.sound hc.servers
  by_cases hvisit : e.visitsSlot j = true
  · rw [if_pos hvisit]
    obtain ⟨answer, rfl⟩ := Event.visitsSlot_iff.mp hvisit
    cases heffect with
    | visits heffect =>
      obtain ⟨hused, hmodule, hle⟩ := heffect.untilVacated hc hrunning
        (fun hserved ↦ hgoal ⟨hvisit, hc, answer, rfl, .inl hserved⟩)
        fun hvacated ↦ hgoal ⟨hvisit, hc, answer, rfl, .inr
          ⟨hvacated.1, hsound.quiet.lifecycle.idle (.inl hvacated.1), hvacated.2⟩⟩
      exact ⟨⟨hsound, hservers, hused, hmodule⟩, hle⟩
  · rw [if_neg hvisit]
    rw [Bool.not_eq_true] at hvisit
    obtain ⟨hused, hmodule, hle⟩ := heffect.untilVacated hc hvisit
    exact ⟨⟨hsound, hservers, hused, hmodule⟩, hle⟩

end Vacating

/-- **A connection is served or gives its slot back.** In every run while session handling is
running, among any thirteen visits of the slot of a connection, one finds the connection in its slot
and either running, with its descriptor open, or leaves the slot vacant. -/
theorem connection_served_or_vacated (es : List Event) (c : System)
    (hrun : System.init.run es = some c) (j : Slot) (hused : (c.world.session j).state ≠ .unused)
    (hmodule : (c.world.session j).module = some .clientconn) (es' : List Event) (c' : System)
    (hrun' : c.run es' = some c') (hrunning : c'.world.handlingState = .running)
    (hvisits : 13 ≤ es'.countP (Event.visitsSlot j)) :
    ∃ es₁ answer es₂ c₁ c₂, es' = es₁ ++ .visits j answer :: es₂ ∧ c.run es₁ = some c₁ ∧
      c₁.step (.visits j answer) = some c₂ ∧
      (c₁.world.session j).module = some .clientconn ∧
      (c₁.world.Served answer j ∨ c₂.world.Vacant j) := by
  obtain ⟨hsound, hservers⟩ := System.servers_of_run hrun
  have hhosting : c.Hosting j .clientconn := ⟨hsound, hservers, hused, hmodule⟩
  have hle := (c.world.session j).untilVacated_le
  obtain ⟨es₁, e, es₂, c₁, c₂, hes, hrun₁, hstep, -, hhosting₁, answer, rfl, hgoal⟩ :=
    exists_tick_of_variant System.Hosting.vacates (hsound.running_steps hrun' hrunning) hhosting
      hrun' (by omega)
  exact ⟨es₁, answer, es₂, c₁, c₂, hes, hrun₁, hstep, hhosting₁.module, hgoal⟩

/-- A connection whose thread never runs. -/
theorem connection_served_or_vacated_idle :
    ∃ es c es₁ answer es₂ c₁ c₂, System.init.run es = some c ∧
      List.replicate 13 (Event.visits 1 fun _ ↦ 0) = es₁ ++ .visits 1 answer :: es₂ ∧
      c.run es₁ = some c₁ ∧ c₁.step (.visits 1 answer) = some c₂ ∧
      (c₁.world.Served answer 1 ∨ c₂.world.Vacant 1) := by
  let granted : Query → ℤ := fun q ↦ if q = .openServerSocket then 3 else 0
  let silent : Query → ℤ := fun _ ↦ 0
  let es : List Event := [.opens .server granted, .visits 0 granted, .runs 1 0, .runs 1 1,
    .runs 1 0, .runs 1 0, .runs 1 4, .runs 1 0]
  have hrun : ((System.init.run es).bind fun c ↦
      (c.run (List.replicate 13 (.visits 1 silent))).map fun c' ↦ ((c.world.session 1).state,
        (c.world.session 1).module, c'.world.handlingState))
          = some (.start, some .clientconn, .running) := by decide +kernel
  obtain ⟨c, hrun, hvisits⟩ := Option.bind_eq_some_iff.mp hrun
  obtain ⟨c', hvisits, hend⟩ := Option.map_eq_some_iff.mp hvisits
  obtain ⟨hstate, hend⟩ := Prod.mk.inj hend
  obtain ⟨hmodule, hrunning⟩ := Prod.mk.inj hend
  have hused : (c.world.session 1).state ≠ .unused := by
    rw [hstate]
    decide
  have hcount : 13 ≤ (List.replicate 13 (Event.visits 1 silent)).countP (Event.visitsSlot 1) := by
    decide
  obtain ⟨es₁, answer, es₂, c₁, c₂, hes, hrun₁, hstep, -, hgoal⟩ := connection_served_or_vacated
    es c hrun 1 hused hmodule _ c' hvisits hrunning hcount
  exact ⟨es, c, es₁, answer, es₂, c₁, c₂, hrun, hes, hrun₁, hstep, hgoal⟩

end DistributorMerger
