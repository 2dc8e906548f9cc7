import DistributorMerger.Session.Liveness
import DistributorMerger.Session.Restart

/-!
# Emptying the slots

What brings the supervisor to its end once session handling has been closed, whatever the threads of
the sessions do in between. The first visit of its slot ends a server, so that no connection is
accepted any more when all slots have been visited. From then on a slot is empty after two visits:
the first one may find the descriptor of the session lost and restart it, but a session without a
descriptor is not found lost.

A capture session keeps the number of its descriptor when it is stopped, so that it may be found
lost for ever.
-/

namespace DistributorMerger

/-- The event opens no session, and does not restart a capture session. -/
def System.Drains (c : System) : Event → Prop
  | .opens _ _ => False
  | .visits i answer => (c.world.session i).OwnsFd ∨ ¬ c.RestartsInShutdown i answer
  | _ => True

/-- Session handling has been closed. -/
structure System.Closed (c : System) : Prop where
  /-- The system is sound. -/
  sound : c.Sound
  /-- The listening sockets are not supervised. -/
  servers : c.world.ServersUnsupervised
  /-- Session handling is not running. -/
  closed : c.world.handlingState ≠ .running

/-- One for a server. -/
def Session.serving (s : Session) : ℕ :=
  if s.module = some .server ∧ s.state ≠ .unused then 1 else 0

/-- How many visits it takes to empty the slot. -/
def Session.untilEmpty (s : Session) : ℕ :=
  match s.state with
  | .unused => 0
  | .start => if s.fd ≤ 0 then 1 else 2
  | _ => 2

theorem Session.serving_eq_zero {s : Session} :
    s.serving = 0 ↔ (s.module = some .server → s.state = .unused) := by
  rw [Session.serving, ite_eq_right_iff]
  constructor
  · intro h hm
    by_contra hused
    exact one_ne_zero (h ⟨hm, hused⟩)
  · rintro h ⟨hm, hused⟩
    exact absurd (h hm) hused

theorem Session.serving_le_one (s : Session) : s.serving ≤ 1 := by
  rw [Session.serving]
  split <;> decide

theorem Session.untilEmpty_le (s : Session) : s.untilEmpty ≤ 2 := by
  unfold Session.untilEmpty
  split
  · exact Nat.zero_le _
  · split <;> decide
  · exact le_refl _

theorem Session.untilEmpty_eq_zero {s : Session} : s.untilEmpty = 0 ↔ s.state = .unused := by
  unfold Session.untilEmpty
  split
  · exact iff_of_true rfl ‹_›
  · split <;> simp [*]
  · exact iff_of_false two_ne_zero ‹_›

section Steps

variable {c c' : System} {e : Event} {w' : World} {i j : Slot} {m : Module} {answer : Query → ℤ}

theorem RunnerStep.unmoved_of_ne {w : World} (h : RunnerStep i m w w') (hj : j ≠ i)
    (hm : m ≠ .server) : (w.session j).Unmoved (w'.session j) := by
  have hof : ∀ {s : Session}, s = w.session j → (w.session j).Unmoved s := by
    rintro s rfl
    exact .refl _
  cases h with
  | accepts => exact absurd rfl hm
  | pauses => exact .refl _
  | lists => exact .refl _
  | tends h => exact h.session j
  | _ => exact hof (World.session_modifySession_of_ne _ hj _)

theorem System.Closed.step (hc : c.Closed) (hstep : c.step e = some c') : c'.Closed :=
  ⟨(hc.sound.step hstep).2, (hc.sound.step hstep).1.servers hc.sound hc.servers,
    hc.sound.closed_step hstep hc.closed⟩

/-- **A visit during the shutdown** aborts the session, or terminates it if it finds its descriptor
lost. -/
theorem VisitEffect.shuts (h : VisitEffect answer j c.world w') (hc : c.Closed)
    (hused : (c.world.session j).state ≠ .unused) :
    ∃ m newState, (c.world.session j).module = some m ∧
      w' = c.world.stopAs answer j m newState ∧
      (c.world.Lost answer j ∧ newState = .terminating ∨
        ¬ c.world.Lost answer j ∧ newState = .aborting) := by
  by_cases hlost : c.world.Lost answer j
  · have horder : c.world.orderedState answer j = .terminate := by
      rw [World.orderedState, if_pos hlost]
    obtain ⟨m, newState, hm, hnew, heq⟩ := h.eq_stopAs ⟨hused, .inl horder⟩
    refine ⟨m, newState, hm, heq, .inl ⟨hlost, ?_⟩⟩
    rcases hnew with ⟨-, hnew⟩ | ⟨habort, -⟩
    · exact hnew
    · exact absurd (horder.symm.trans habort) (by decide)
  · have horder : c.world.orderedState answer j = .abort := by
      rw [World.orderedState, if_neg hlost, if_pos]
      exact ⟨hc.closed, hc.sound.notStopped j, (hc.sound.quiet.calm j).2.2⟩
    obtain ⟨m, newState, hm, hnew, heq⟩ := h.eq_stopAs ⟨hused, .inr horder⟩
    refine ⟨m, newState, hm, heq, .inr ⟨hlost, ?_⟩⟩
    rcases hnew with ⟨hterminate, -⟩ | ⟨-, hnew⟩
    · exact absurd (horder.symm.trans hterminate) (by decide)
    · exact hnew

theorem VisitEffect.eq_of_unused (h : VisitEffect answer j c.world w')
    (hunused : (c.world.session j).state = .unused) : w' = c.world := by
  have hother : ∀ {state : SessionState}, c.world.orderedState answer j = state →
      state ≠ .terminate → state ≠ .abort → state ≠ .unused → False := by
    rintro state rfl hterminate habort hne
    exact hne ((World.orderedState_eq_state hterminate habort).trans hunused)
  cases h with
  | skipped => rfl
  | tended _ h => exact (h.elim (hother · nofun nofun nofun) (hother · nofun nofun nofun)).elim
  | started m h => exact (hother h nofun nofun nofun).elim
  | startFailed m h => exact (hother h nofun nofun nofun).elim
  | waited h => exact (hother h nofun nofun nofun).elim
  | timedOut h => exact (hother h nofun nofun nofun).elim
  | stopped _ _ _ hused => exact absurd hunused hused

/-- A visit during the shutdown that restarts nothing empties the slot. -/
theorem VisitEffect.empties (h : VisitEffect answer j c.world w') (hc : c.Closed)
    (hrestarts : ¬ c.RestartsInShutdown j answer) : (w'.session j).state = .unused := by
  by_cases hunused : (c.world.session j).state = .unused
  · rw [h.eq_of_unused hunused]
    exact hunused
  · obtain ⟨m, newState, hm, rfl, ⟨hlost, rfl⟩ | ⟨-, rfl⟩⟩ := h.shuts hc hunused
    · rw [World.session_stopAs_self, Session.state_stopAs_of_terminating hm]
      exact fun h ↦ hrestarts ⟨hlost, h⟩
    · rw [World.session_stopAs_self]
      exact Session.state_stopAs_aborting ..

/-- A visit during the shutdown restarts a session without a descriptor, if it restarts it. -/
theorem VisitEffect.clears (h : VisitEffect answer j c.world w') (hc : c.Closed)
    (hrestarts : c.RestartsInShutdown j answer) (hused : (c.world.session j).state ≠ .unused)
    (howns : (c.world.session j).OwnsFd) :
    (w'.session j).state = .start ∧ (w'.session j).fd ≤ 0 := by
  obtain ⟨m, newState, hm, rfl, ⟨-, rfl⟩ | ⟨hnot, -⟩⟩ := h.shuts hc hused
  · rw [World.session_stopAs_self]
    refine ⟨?_, ((hc.sound.fit j).cleared hm _).2.1 ?_⟩
    · have hnot := mt (Session.state_stopAs_of_terminating hm).mp (not_not_intro hrestarts.2)
      rw [Session.state_stopAs] at hnot ⊢
      split at hnot
      · exact absurd rfl hnot
      · rw [if_neg ‹_›]
    · rw [Session.OwnsFd, ((hc.sound.fit j).cleared hm _).1, ← hm]
      exact howns
  · exact absurd hrestarts.1 hnot

theorem VisitEffect.untilEmpty (h : VisitEffect answer j c.world w') (hc : c.Closed)
    (hdrains : (c.world.session j).OwnsFd ∨ ¬ c.RestartsInShutdown j answer) :
    (w'.session j).untilEmpty ≤ (c.world.session j).untilEmpty - 1 := by
  by_cases hrestarts : c.RestartsInShutdown j answer
  · by_cases hunused : (c.world.session j).state = .unused
    · rw [h.eq_of_unused hunused, Session.untilEmpty_eq_zero.mpr hunused]
    · obtain ⟨hstart, hfd⟩ := h.clears hc hrestarts hunused (hdrains.resolve_right (· hrestarts))
      -- the descriptor that has been found lost is a number above those of the standard streams
      have hpos : ¬ (c.world.session j).fd ≤ 0 := by
        have := hrestarts.1.2.1
        omega
      have hbefore : (c.world.session j).untilEmpty = 2 := by
        unfold Session.untilEmpty
        split
        · exact absurd ‹_› hunused
        · exact if_neg hpos
        · rfl
      have hafter : (w'.session j).untilEmpty = 1 := by
        rw [Session.untilEmpty, hstart]
        exact if_pos hfd
      rw [hbefore, hafter]
  · rw [Session.untilEmpty_eq_zero.mpr (h.empties hc hrestarts)]
    exact Nat.zero_le _

theorem EventEffect.stays_unused (h : EventEffect c e w') (hsound : c.Sound)
    (hdrains : c.Drains e) (hservers : ∀ j, (c.world.session j).serving = 0)
    (hunused : (c.world.session j).state = .unused) : (w'.session j).state = .unused := by
  have hsame : (c.world.session j).Unmoved (w'.session j) → (w'.session j).state = .unused :=
    fun h ↦ (unmoved_state _ _ h).trans hunused
  cases h with
  | opens => exact hdrains.elim
  | @visits i answer _ h =>
    by_cases hj : j = i
    · subst hj
      rw [h.eq_of_unused hunused]
      exact hunused
    · exact hsame (h.unmoved hj)
  | @runs t z i m _ ht h =>
    have hused : (c.world.session i).state ≠ .unused := fun hi ↦
      hsound.quiet.lifecycle.idle (.inl hi) ⟨t, m, ht⟩
    have hj : j ≠ i := by
      rintro rfl
      exact hused hunused
    refine hsame (h.unmoved_of_ne hj ?_)
    rintro rfl
    exact hused (Session.serving_eq_zero.mp (hservers i) (hsound.thread_module ht))
  | captures h => exact hsame (h.session j)
  | closes => exact hunused

/-- An event of the shutdown leaves no more servers, and a visit of its slot ends a server. -/
theorem EventEffect.serves (heffect : EventEffect c e w') (hc : c.Closed)
    (hdrains : c.Drains e) : (w'.session j).serving
      ≤ (c.world.session j).serving - if e.visitsSlot j then 1 else 0 := by
  have hsame : (c.world.session j).Unmoved (w'.session j) →
      (w'.session j).serving ≤ (c.world.session j).serving := by
    intro hunmoved
    rw [Session.serving, Session.serving, unmoved_module _ _ hunmoved, unmoved_state _ _ hunmoved]
  by_cases hvisit : e.visitsSlot j = true
  · rw [if_pos hvisit]
    obtain ⟨answer, rfl⟩ := Event.visitsSlot_iff.mp hvisit
    cases heffect with
    | visits heffect =>
      by_cases hserver : (c.world.session j).module = some .server
      · -- a listening socket is not supervised, and therefore not found lost
        have hempty := heffect.empties hc fun hrestarts ↦ by
          have hsupervised := hrestarts.1.1
          rw [hc.servers j hserver] at hsupervised
          cases hsupervised
        rw [Session.serving_eq_zero.mpr fun _ ↦ hempty]
        exact Nat.zero_le _
      · have hmodule : (w'.session j).module = (c.world.session j).module := by
          by_cases hunused : (c.world.session j).state = .unused
          · rw [heffect.eq_of_unused hunused]
          · obtain ⟨m, newState, hm, heq, -⟩ := heffect.shuts hc hunused
            rw [heq, World.session_stopAs_self, hm]
            exact ((hc.sound.fit j).cleared hm newState).1
        rw [Session.serving_eq_zero.mpr fun hm ↦ absurd (hmodule.symm.trans hm) hserver]
        exact Nat.zero_le _
  · rw [if_neg hvisit, Nat.sub_zero]
    cases heffect with
    | opens => exact hdrains.elim
    | visits heffect => exact hsame (heffect.unmoved fun hj ↦ hvisit (decide_eq_true hj.symm))
    | @runs t z i m _ ht h =>
      by_cases hj : j = i
      · subst hj
        have hused : (c.world.session j).state ≠ .unused := fun hunused ↦
          hc.sound.quiet.lifecycle.idle (.inl hunused) ⟨t, m, ht⟩
        by_cases hserver : (c.world.session j).module = some .server
        · have hbefore : (c.world.session j).serving = 1 := if_pos ⟨hserver, hused⟩
          rw [hbefore]
          exact Session.serving_le_one _
        · rw [Session.serving_eq_zero.mpr fun hm ↦ absurd ((h.module hused).symm.trans hm) hserver]
          exact Nat.zero_le _
      · rcases h.unmoved_or_clientconn hj with hunmoved | hconn
        · exact hsame hunmoved
        · rw [Session.serving_eq_zero.mpr fun hm ↦ absurd (hconn.symm.trans hm) nofun]
          exact Nat.zero_le _
    | captures h => exact hsame (h.session j)
    | closes => exact hsame (.refl _)

theorem System.Closed.serves (j : Slot) (c : System) (e : Event) (c' : System) (hc : c.Closed)
    (hdrains : c.Drains e) (hstep : c.step e = some c') :
    c'.Closed ∧ (c'.world.session j).serving
      ≤ (c.world.session j).serving - if e.visitsSlot j then 1 else 0 :=
  ⟨hc.step hstep, (hc.sound.step hstep).1.serves hc hdrains⟩

/-- A step of the shutdown without servers brings no slot further away from being empty, and a visit
brings its slot closer to that. -/
theorem System.Closed.drains (j : Slot) (c : System) (e : Event) (c' : System)
    (hc : c.Closed ∧ ∀ j, (c.world.session j).serving = 0) (hdrains : c.Drains e)
    (hstep : c.step e = some c') :
    (c'.Closed ∧ ∀ j, (c'.world.session j).serving = 0) ∧ (c'.world.session j).untilEmpty
      ≤ (c.world.session j).untilEmpty - if e.visitsSlot j then 1 else 0 := by
  obtain ⟨hclosed, hservers⟩ := hc
  refine ⟨⟨hclosed.step hstep, fun i ↦ ?_⟩, ?_⟩
  · have hle := (System.Closed.serves i c e c' hclosed hdrains hstep).2
    rw [hservers i, Nat.zero_sub] at hle
    exact Nat.le_zero.mp hle
  have heffect := (hclosed.sound.step hstep).1
  by_cases hvisit : e.visitsSlot j = true
  · rw [if_pos hvisit]
    obtain ⟨answer, rfl⟩ := Event.visitsSlot_iff.mp hvisit
    cases heffect with
    | visits heffect => exact heffect.untilEmpty hclosed hdrains
  · rw [if_neg hvisit, Nat.sub_zero]
    rw [Bool.not_eq_true] at hvisit
    by_cases hunused : (c.world.session j).state = .unused
    · have hempty := heffect.stays_unused hclosed.sound hdrains hservers hunused
      rw [Session.untilEmpty_eq_zero.mpr hempty]
      exact Nat.zero_le _
    · by_cases hstart : (c.world.session j).state = .start
      · have hunmoved := heffect.unmoved_of_start hclosed.sound hstart hvisit
        rw [Session.untilEmpty, Session.untilEmpty, unmoved_state _ _ hunmoved,
          unmoved_fd _ _ hunmoved]
      · have hbefore : (c.world.session j).untilEmpty = 2 := by
          unfold Session.untilEmpty
          split
          · exact absurd ‹_› hunused
          · exact absurd ‹_› hstart
          · rfl
        rw [hbefore]
        exact Session.untilEmpty_le _

theorem System.Closed.visit (hc : c.Closed) (i : Slot) (answer : Query → ℤ) :
    ∃ c', c.step (.visits i answer) = some c' ∧
      ∀ j, (c'.world.session j).module = (c.world.session j).module := by
  by_cases hunused : (c.world.session i).state = .unused
  · refine ⟨⟨c.world, spawned c.world c.world c.pool⟩, ?_, fun _ ↦ rfl⟩
    rw [System.step, exec_superviseSession_unused hunused]
    rfl
  · obtain ⟨w', hexec, -, hothers, -⟩ := hc.sound.shutdown_visit hc.closed hunused answer
    refine ⟨⟨w', spawned c.world w' c.pool⟩, ?_, fun j ↦ ?_⟩
    · rw [System.step, hexec]
      rfl
    · by_cases hj : j = i
      · obtain ⟨m, newState, hm, rfl, -⟩ := (hc.sound.visitEffect hexec).shuts hc hunused
        rw [hj, World.session_stopAs_self, hm]
        exact ((hc.sound.fit i).cleared hm newState).1
      · rw [hothers j hj]

theorem System.Closed.visits (hc : c.Closed) {es : List Event}
    (hes : ∀ e ∈ es, ∃ i answer, e = .visits i answer) :
    ∃ c', c.run es = some c' ∧
      ∀ j, (c'.world.session j).module = (c.world.session j).module := by
  induction es generalizing c with
  | nil => exact ⟨c, rfl, fun _ ↦ rfl⟩
  | cons e es ih =>
    obtain ⟨i, answer, rfl⟩ := hes e List.mem_cons_self
    obtain ⟨c₁, hstep, hmodule₁⟩ := hc.visit i answer
    obtain ⟨c₂, hrun, hmodule₂⟩ := ih (hc.step hstep) fun e he ↦ hes e (List.mem_cons_of_mem _ he)
    refine ⟨c₂, ?_, fun j ↦ (hmodule₂ j).trans (hmodule₁ j)⟩
    rw [System.run_cons, hstep]
    exact hrun

end Steps

/-- **A shutdown completes.** Once session handling has been closed, in every run in which no
session is opened and no capture session is restarted, all slots are empty as soon as each of them
has been visited once, and then twice again, and the supervisor returns. -/
theorem shutdown_completes (es : List Event) (c : System) (hrun : System.init.run es = some c)
    (hclosed : c.world.handlingState ≠ .running) (es₁ es₂ : List Event) (c' : System)
    (hrun' : c.run (es₁ ++ es₂) = some c')
    (hdrains : ∀ es₃ e es₄ c₃, es₁ ++ es₂ = es₃ ++ e :: es₄ → c.run es₃ = some c₃ → c₃.Drains e)
    (hvisits₁ : ∀ j, 1 ≤ es₁.countP (Event.visitsSlot j))
    (hvisits₂ : ∀ j, 2 ≤ es₂.countP (Event.visitsSlot j)) :
    (∀ j, (c'.world.session j).state = .unused) ∧
      ∀ rounds answer, (pcapsessionSupervisionRun (rounds + 1)).exec answer c'.world
        = some (true, { c'.world with handlingState := .stopped }) := by
  obtain ⟨hsound, hservers⟩ := System.servers_of_run hrun
  rw [System.run_append] at hrun'
  obtain ⟨c₁, hrun₁, hrun₂⟩ := Option.bind_eq_some_iff.mp hrun'
  -- the first visits end the servers
  have hserved : ∀ j, c₁.Closed ∧ (c₁.world.session j).serving
      ≤ (c.world.session j).serving - es₁.countP (Event.visitsSlot j) := by
    intro j
    refine foldlM_drains (System.Closed.serves j) (fun es₃ e es₄ c₃ _ heq hrun₃ _ ↦ ?_)
      ⟨hsound, hservers, hclosed⟩ hrun₁
    refine hdrains es₃ e (es₄ ++ es₂) c₃ ?_ hrun₃
    rw [heq, List.append_assoc]
    rfl
  have hnone : ∀ j, (c₁.world.session j).serving = 0 := by
    intro j
    have hle := (hserved j).2
    have hone := (c.world.session j).serving_le_one
    have hvisits := hvisits₁ j
    omega
  -- the others empty the slots
  have hemptied : ∀ j, (c'.Closed ∧ ∀ j, (c'.world.session j).serving = 0) ∧
      (c'.world.session j).untilEmpty
        ≤ (c₁.world.session j).untilEmpty - es₂.countP (Event.visitsSlot j) := by
    intro j
    refine foldlM_drains (System.Closed.drains j) (fun es₃ e es₄ c₃ _ heq hrun₃ _ ↦ ?_)
      ⟨(hserved j).1, hnone⟩ hrun₂
    refine hdrains (es₁ ++ es₃) e es₄ c₃ ?_ ?_
    · rw [heq, List.append_assoc]
    · rw [System.run_append, hrun₁]
      exact hrun₃
  have hempty : ∀ j, (c'.world.session j).state = .unused := by
    intro j
    have hle := (hemptied j).2
    have htwo := (c₁.world.session j).untilEmpty_le
    have hvisits := hvisits₂ j
    exact Session.untilEmpty_eq_zero.mp (by omega)
  exact ⟨hempty, fun rounds answer ↦
    exec_pcapsessionSupervisionRun hempty (hemptied 0).1.1.closed rounds⟩

/-- A server that is being started and a client when session handling is closed. -/
theorem shutdown_completes_server :
    ∃ es c es' c', System.init.run es = some c ∧ (c.world.session 0).state = .starting ∧
      (c.world.session 1).state = .start ∧ c.run es' = some c' ∧
      ∀ j, (c'.world.session j).state = .unused := by
  let granted : Query → ℤ := fun q ↦ if q = .openServerSocket then 3 else 0
  let es : List Event := [.opens .server granted, .opens (.client none) granted,
    .visits 0 granted, .closes]
  let round := visitsOf (fun _ ↦ granted) (List.finRange pcapSessionMaxSessions)
  have hrun : ((System.init.run es).map fun c ↦ (c.world.handlingState, (c.world.session 0).state,
      (c.world.session 1).state, decide (∀ j, (c.world.session j).OwnsFd)))
        = some (.terminating, .starting, .start, true) := by decide +kernel
  obtain ⟨c, hrun, hend⟩ := Option.map_eq_some_iff.mp hrun
  obtain ⟨hhandling, hend⟩ := Prod.mk.inj hend
  obtain ⟨hserver, hend⟩ := Prod.mk.inj hend
  obtain ⟨hclient, howns⟩ := Prod.mk.inj hend
  obtain ⟨hsound, hservers⟩ := System.servers_of_run hrun
  have hclosed : c.Closed := ⟨hsound, hservers, by rw [hhandling]; nofun⟩
  have hvisits : ∀ e ∈ round ++ (round ++ round), ∃ i answer, e = .visits i answer := by
    intro e he
    have he : e ∈ round := by simpa using he
    obtain ⟨i, -, rfl⟩ := List.mem_map.mp he
    exact ⟨i, granted, rfl⟩
  have hcount : ∀ j, 1 ≤ round.countP (Event.visitsSlot j) := by
    intro j
    refine List.countP_pos_iff.mpr ⟨.visits j granted, ?_, decide_eq_true rfl⟩
    exact List.mem_map_of_mem (List.mem_finRange j)
  obtain ⟨c', hrun', -⟩ := hclosed.visits hvisits
  refine ⟨es, c, _, c', hrun, hserver, hclient, hrun', (shutdown_completes es c hrun hclosed.closed
    round (round ++ round) c' hrun' (fun es₃ e es₄ c₃ heq hrun₃ ↦ ?_) hcount fun j ↦ ?_).1⟩
  · obtain ⟨i, answer, rfl⟩ := hvisits e (heq ▸ List.mem_append_right _ List.mem_cons_self)
    have hvisits₃ : ∀ e ∈ es₃, ∃ i answer, e = .visits i answer := fun e he ↦
      hvisits e (heq ▸ List.mem_append_left _ he)
    obtain ⟨c₄, hrun₄, hmodule⟩ := hclosed.visits hvisits₃
    obtain rfl := Option.some.inj (hrun₃.symm.trans hrun₄)
    refine .inl ?_
    rw [Session.OwnsFd, hmodule i]
    exact of_decide_eq_true howns i
  · have := hcount j
    rw [List.countP_append]
    omega

/-! ## Captures that are found lost for ever -/

/-- A capture session is to be restarted, and the number of the descriptor that it supervises is
left over from the capture that has ended. -/
structure System.Stale (c : System) (j : Slot) (m : Module) (fd : ℤ) : Prop where
  /-- The system is sound. -/
  sound : c.Sound
  /-- The session has its module. -/
  module : (c.world.session j).module = some m
  /-- It is to be started. -/
  start : (c.world.session j).state = .start
  /-- It is restarted when it is terminated. -/
  restarts : (c.world.session j).Restarts
  /-- It supervises its descriptor. -/
  supervised : (c.world.session j).superviseFd = true
  /-- Its descriptor. -/
  fd_eq : (c.world.session j).fd = fd

section Stale

variable {c c' : System} {e : Event} {j : Slot} {m : Module} {fd : ℤ} {answer : Query → ℤ}

theorem World.lost_of_closed {w : World} (hsupervised : (w.session j).superviseFd = true)
    (hfd : 2 < (w.session j).fd) (hclosed : (w.session j).fd ∉ w.openFds) : w.Lost answer j :=
  ⟨hsupervised, hfd, fun hseems ↦ hseems.elim (by omega) (hclosed ·.1)⟩

theorem Session.stopAs_capture {s : Session} (hm : s.module = some m)
    (hcapture : m = .livecapture ∨ m = .filecapture) (hrestarts : s.Restarts) :
    s.stopAs m .terminating = { s with state := .start, intervalCounter := 0, thread := 0,
                                       pcapHandle := none, monitor := none } := by
  rw [Session.stopAs]
  rcases hcapture with rfl | rfl
  · rfl
  · have hne : s.iterations ≠ 0 := hrestarts.2 hm
    simp [Session.afterStop, Session.stateAfterStop, hne]

/-- A visit that terminates a capture session leaves it stale. -/
theorem System.Sound.stale (h : c.Sound) (hstep : c.step (.visits j answer) = some c')
    (hused : (c.world.session j).state ≠ .unused) (hm : (c.world.session j).module = some m)
    (hcapture : m = .livecapture ∨ m = .filecapture) (hrestarts : (c.world.session j).Restarts)
    (hsupervised : (c.world.session j).superviseFd = true)
    (horder : c.world.orderedState answer j = .terminate) :
    c'.Stale j m (c.world.session j).fd ∧ c'.world = c.world.stopAs answer j m .terminating := by
  obtain ⟨heffect, hsound⟩ := h.step hstep
  obtain ⟨m', newState, hm', hnew, heq⟩ : ∃ m newState, (c.world.session j).module = some m ∧
      (c.world.orderedState answer j = .terminate ∧ newState = .terminating ∨
        c.world.orderedState answer j = .abort ∧ newState = .aborting) ∧
      c'.world = c.world.stopAs answer j m newState := by
    cases heffect with
    | visits heffect => exact heffect.eq_stopAs ⟨hused, .inl horder⟩
  obtain rfl := Option.some.inj (hm.symm.trans hm')
  obtain rfl : newState = .terminating := by
    rcases hnew with ⟨-, hnew⟩ | ⟨habort, -⟩
    · exact hnew
    · exact absurd (horder.symm.trans habort) (by decide)
  have hsession : c'.world.session j = (c.world.session j).stopAs m .terminating := by
    rw [heq, World.session_stopAs_self]
  rw [Session.stopAs_capture hm hcapture hrestarts] at hsession
  refine ⟨⟨hsound, ?_, ?_, ?_, ?_, ?_⟩, heq⟩ <;> rw [hsession]
  · exact hm
  · exact hrestarts
  · exact hsupervised

theorem System.Stale.step (hcapture : m = .livecapture ∨ m = .filecapture) (hfd : 2 < fd)
    (c : System) (e : Event) (c' : System) (hc : c.Stale j m fd) (hclosed : fd ∉ c.world.openFds)
    (hstep : c.step e = some c') : c'.Stale j m fd := by
  obtain ⟨heffect, hsound⟩ := hc.sound.step hstep
  by_cases hvisit : e.visitsSlot j = true
  · obtain ⟨answer, rfl⟩ := Event.visitsSlot_iff.mp hvisit
    have hlost : c.world.Lost answer j :=
      World.lost_of_closed hc.supervised (hc.fd_eq ▸ hfd) (hc.fd_eq ▸ hclosed)
    have hused : (c.world.session j).state ≠ .unused := by
      rw [hc.start]
      nofun
    have hstale := (hc.sound.stale hstep hused hc.module hcapture hc.restarts hc.supervised
      (by rw [World.orderedState, if_pos hlost])).1
    rwa [hc.fd_eq] at hstale
  · rw [Bool.not_eq_true] at hvisit
    have hunmoved := heffect.unmoved_of_start hc.sound hc.start hvisit
    refine ⟨hsound, ?_, ?_, ?_, ?_, ?_⟩ <;> rw [hunmoved]
    · exact hc.module
    · exact hc.start
    · exact hc.restarts
    · exact hc.supervised
    · exact hc.fd_eq

end Stale

/-- **A capture that has been terminated is not started again** as long as no descriptor gets the
number that its descriptor had, and a shutdown does not empty its slot: every visit finds the
descriptor lost, which overrides the order to start the session and the order to abort it. -/
theorem stopped_capture_stays_down (es : List Event) (c : System)
    (hrun : System.init.run es = some c) (j : Slot) (m : Module)
    (hused : (c.world.session j).state ≠ .unused) (hm : (c.world.session j).module = some m)
    (hcapture : m = .livecapture ∨ m = .filecapture) (hrestarts : (c.world.session j).Restarts)
    (hsupervised : (c.world.session j).superviseFd = true) (hfd : 2 < (c.world.session j).fd)
    (answer : Query → ℤ) (horder : c.world.orderedState answer j = .terminate) (c' : System)
    (hstep : c.step (.visits j answer) = some c') :
    ((c.world.session j).pcapHandle = some ⟨(c.world.session j).fd⟩ →
      (c.world.session j).fd ∉ c'.world.openFds) ∧
    ∀ es' c'', c'.run es' = some c'' →
      (∀ es₁ es₂ c₁, es' = es₁ ++ es₂ → c'.run es₁ = some c₁ →
        (c.world.session j).fd ∉ c₁.world.openFds) →
      (c''.world.session j).state = .start ∧ ¬ c''.world.HasThread j ∧
        (c''.world.session j).module = some m ∧ ∀ answer, c''.world.Lost answer j := by
  obtain ⟨hstale, heq⟩ := (System.sound_of_run hrun).stale hstep hused hm hcapture hrestarts
    hsupervised horder
  refine ⟨fun hhandle ↦ ?_, fun es' c'' hrun' hclosed ↦ ?_⟩
  · have hfds : c.world.stopFds answer j m = {(c.world.session j).fd} := by
      rcases hcapture with rfl | rfl <;> rw [World.stopFds, Session.handleFds, hhandle] <;> rfl
    rw [heq, World.stopAs_rest, hfds]
    exact fun hmem ↦ (Finset.mem_sdiff.mp hmem).2 (Finset.mem_singleton_self _)
  · have hstale' : c''.Stale j m (c.world.session j).fd :=
      System.run_induction (System.Stale.step hcapture hfd)
        (fun es₁ e es₂ c₁ heq hrun₁ ↦ hclosed es₁ (e :: es₂) c₁ heq hrun₁) hstale hrun'
    refine ⟨hstale'.start, hstale'.sound.quiet.lifecycle.idle (.inr hstale'.start),
      hstale'.module, fun answer ↦ World.lost_of_closed hstale'.supervised ?_ ?_⟩
    · rw [hstale'.fd_eq]
      exact hfd
    · rw [hstale'.fd_eq]
      exact hclosed es' [] c'' (List.append_nil _).symm hrun'

/-- A live capture whose interface goes down, and that is visited twice after that. -/
theorem stopped_capture_stays_down_live :
    ∃ es c answer c' c'', System.init.run es = some c ∧ (c.world.session 0).state = .running ∧
      c.step (.visits 0 answer) = some c' ∧
      c'.run [.visits 0 fun _ ↦ 0, .closes, .visits 0 fun _ ↦ 0] = some c'' ∧
      (c''.world.session 0).state = .start ∧ ¬ c''.world.HasThread 0 := by
  let granted : Query → ℤ := fun q ↦ if q = .pcapOpenLive then 3 else 0
  let down : Query → ℤ := fun q ↦ if q = .pollSupervised 0 then 1 else 0
  let silent : Query → ℤ := fun _ ↦ 0
  let es : List Event := [.opens .livecapture granted, .visits 0 silent, .runs 1 0, .runs 1 0]
  let es' : List Event := [.visits 0 silent, .closes, .visits 0 silent]
  have hrun : ((System.init.run es).bind fun c ↦ (c.step (.visits 0 down)).bind fun c' ↦
      (c'.run es').map fun _ ↦ ((c.world.session 0).state, (c.world.session 0).module,
        (c.world.session 0).superviseFd, (c.world.session 0).fd, c.world.orderedState down 0,
        decide (∀ n ≤ es'.length, ((es'.take n).foldlM System.step c').all
          (fun c ↦ decide (3 ∉ c.world.openFds)) = true)))
          = some (.running, some .livecapture, true, 3, .terminate, true) := by decide +kernel
  obtain ⟨c, hrun, hend⟩ := Option.bind_eq_some_iff.mp hrun
  obtain ⟨c', hstep, hend⟩ := Option.bind_eq_some_iff.mp hend
  obtain ⟨c'', hrun', hend⟩ := Option.map_eq_some_iff.mp hend
  obtain ⟨hstate, hend⟩ := Prod.mk.inj hend
  obtain ⟨hm, hend⟩ := Prod.mk.inj hend
  obtain ⟨hsupervised, hend⟩ := Prod.mk.inj hend
  obtain ⟨hfd, hend⟩ := Prod.mk.inj hend
  obtain ⟨horder, hclosed⟩ := Prod.mk.inj hend
  have hused : (c.world.session 0).state ≠ .unused := by
    rw [hstate]
    nofun
  have hrestarts : (c.world.session 0).Restarts := by
    rw [Session.Restarts, hm]
    exact ⟨by decide, fun h ↦ absurd h (by decide)⟩
  obtain ⟨hstart, hthread, -⟩ := (stopped_capture_stays_down es c hrun 0 .livecapture hused hm
    (.inl rfl) hrestarts hsupervised (by rw [hfd]; decide) down horder c' hstep).2 es' c'' hrun'
      fun es₁ es₂ c₁ hes hrun₁ ↦ by
        rw [hfd]
        exact foldlM_all_of_take (p := fun c : System ↦ (3 : ℤ) ∉ c.world.openFds)
          (of_decide_eq_true hclosed) hes hrun₁
  exact ⟨es, c, down, c', c'', hrun, hstate, hstep, hrun', hstart, hthread⟩

end DistributorMerger
