import DistributorMerger.Session.Cancellation
import DistributorMerger.Session.Steadiness

/-!
# Waiting for each other

A client's packet handler takes the lock around the merger's dumper while it holds the merge lock;
otherwise one lock is held at a time. The supervisor takes the lock around a dumper that it flushes,
and waits for the threads that it joins.

When threads are cancelled only while they hold no lock and take none before they end, no circle of
agents waits for each other, and whoever waits, waits in the end for an agent that can go on.
-/

namespace DistributorMerger

/-! ## The order of the locks -/

/-- The locks. -/
inductive Lock
  /-- `merge_mutex`. -/
  | merge
  /-- The lock around the dumper of a session. -/
  | pcap (j : Slot)
  deriving DecidableEq, Repr

/-- The merge lock comes before the locks around dumpers. Nobody creates or joins a thread while a
lock is held. -/
def lockOrder : LockOrder Agent Lock World where
  holder := fun l w ↦ match l with
    | .merge => w.mergeMutex
    | .pcap j => (w.session j).pcapMutex
  rank := fun
    | .merge => 0
    | .pcap _ => 1
  inside := fun w w' ↦ w'.threads = w.threads
  free := World.init
  holder_free := by
    intro l
    cases l <;> rfl

instance : Std.Refl lockOrder.inside := ⟨fun _ ↦ rfl⟩

section Order

variable {i j : Slot} {w w' : World} {me : Agent} {held after : List Lock} {l : Lock}

theorem lockOrder_rank_le (l : Lock) : lockOrder.rank l ≤ 1 := by
  cases l with
  | merge => exact Nat.zero_le 1
  | pcap j => exact le_refl 1

theorem holder_init (l : Lock) : lockOrder.holder l World.init = none := lockOrder.holder_free l

theorem holdsLock_iff : w.HoldsLock me ↔ ∃ l, lockOrder.holder l w = some me := by
  constructor
  · rintro (h | ⟨j, h⟩)
    · exact ⟨.merge, h⟩
    · exact ⟨.pcap j, h⟩
  · rintro ⟨_ | j, h⟩
    · exact .inl h
    · exact .inr ⟨j, h⟩

theorem SparesLocks.spares (h : SparesLocks w w') : lockOrder.Spares w w' := by
  intro l
  cases l with
  | merge => exact .inl h.merge
  | pcap j => exact (h.pcap j).imp id (·.2)

theorem ordered_of_spares {α : Type} {p : SessionProg α} (h : p.Within SparesLocks)
    (hsteady : p.Steady) : lockOrder.Ordered me p [] [] :=
  .of_within (h.mono fun _ _ h ↦ h.spares) hsteady

theorem ordered_modifySession {f : Session → Session} (hf : ∀ s, (f s).pcapMutex = s.pcapMutex) :
    lockOrder.Ordered me (modifySession i f) held held :=
  .modify (fun _ ↦ (sparesLocks_modifySession rfl rfl hf).spares) fun _ ↦ rfl

theorem ordered_monitorIncrement (packets bytes : ℤ) :
    lockOrder.Ordered me (monitorIncrement i packets bytes) held held :=
  ordered_modifySession fun _ ↦ rfl

theorem ordered_lockPcapMutex (hrank : ∀ l ∈ held, lockOrder.rank l < 1) :
    lockOrder.Ordered me (lockPcapMutex me i) held (.pcap i :: held) := by
  refine .take hrank (fun _ ↦ rfl) (fun w ↦ ?_) (fun w l hl ↦ ?_) fun _ ↦ rfl
  · exact congrArg Session.pcapMutex (w.session_modifySession_self i _)
  · cases l with
    | merge => rfl
    | pcap j =>
      have hj : j ≠ i := fun hj ↦ hl (hj ▸ rfl)
      exact congrArg Session.pcapMutex (w.session_modifySession_of_ne hj _)

theorem ordered_unlockPcapMutex :
    lockOrder.Ordered me (unlockPcapMutex i) (.pcap i :: held) held := by
  refine .release (fun w ↦ ?_) (fun w l hl ↦ ?_) fun _ ↦ rfl
  · exact congrArg Session.pcapMutex (w.session_modifySession_self i _)
  · cases l with
    | merge => rfl
    | pcap j =>
      have hj : j ≠ i := fun hj ↦ hl (hj ▸ rfl)
      exact congrArg Session.pcapMutex (w.session_modifySession_of_ne hj _)

theorem ordered_lockMergeMutex : lockOrder.Ordered me (lockMergeMutex me) [] [.merge] := by
  refine .take (List.forall_mem_nil _) (fun _ ↦ rfl) (fun _ ↦ rfl) (fun w l hl ↦ ?_) fun _ ↦ rfl
  cases l with
  | merge => exact absurd rfl hl
  | pcap j => rfl

theorem ordered_unlockMergeMutex : lockOrder.Ordered me unlockMergeMutex [.merge] [] := by
  refine .release (fun _ ↦ rfl) (fun w l hl ↦ ?_) fun _ ↦ rfl
  cases l with
  | merge => exact absurd rfl hl
  | pcap j => rfl

/-! ## Programs -/

/-- A dump may be made while locks are held: it asks nothing and waits for nothing. -/
theorem ordered_pcapDump (dumper : Option PcapDumper) (header : PcapPkthdr)
    (data : World → Memory) : lockOrder.Ordered me (pcapDump dumper i header data) held held := by
  cases dumper with
  | none => exact .stuck
  | some dumper =>
    have hwrite : ∀ w chunk, lockOrder.Spares w (w.write dumper i chunk) := fun _ _ ↦
      (sparesLocks_of_eq rfl rfl).spares
    exact (LockOrder.Ordered.modify (fun w ↦ hwrite w _) fun _ ↦ rfl).bind fun _ ↦
      .modify (fun w ↦ hwrite w _) fun _ ↦ rfl

theorem ordered_untunnelledHeader (merger : Slot) (header : PcapPkthdr) :
    lockOrder.Ordered me (untunnelledHeader merger i header) held held := by
  refine (LockOrder.Ordered.read _).bind fun untunnel ↦
    .ite (.update _ (fun w ↦ ?_) fun _ ↦ rfl) (.pure header)
  rw [World.untunnel]
  exact (sparesLocks_modifySession rfl rfl fun _ ↦ by rfl).spares

theorem ordered_mergerPacketHandler (header : PcapPkthdr) :
    lockOrder.Ordered (.session i) (pcapsessionMergerPacketHandler i header) [] [] := by
  refine (LockOrder.Ordered.read _).bind fun merger ↦ ?_
  cases merger with
  | none => exact .pure ()
  | some merger =>
    have hrank : ∀ l ∈ [Lock.merge], lockOrder.rank l < 1 := by
      intro l hl
      rw [List.mem_singleton.mp hl]
      exact Nat.zero_lt_one
    refine ordered_lockMergeMutex.bind fun _ ↦ (ordered_untunnelledHeader merger header).bind
      fun newHeader ↦ (ordered_lockPcapMutex hrank).bind fun _ ↦ ?_
    refine (LockOrder.Ordered.read _).bind fun dumper ↦ (ordered_pcapDump _ _ _).bind fun _ ↦
      ordered_unlockPcapMutex.bind fun _ ↦ ?_
    exact (ordered_monitorIncrement _ _).bind fun _ ↦ (ordered_monitorIncrement _ _).bind
      fun _ ↦ ordered_unlockMergeMutex

theorem ordered_clientHandlePacket (client : Slot) (header : PcapPkthdr) :
    lockOrder.Ordered (.session i) (pcapsessionClientconnClientHandlePacket i client header)
      [] [] := by
  refine (LockOrder.Ordered.read _).bind fun state ↦ .ite ?_ (.pure ())
  refine (LockOrder.Ordered.read _).bind fun fd ↦
    (ordered_of_spares (within_iotestsFdOpen _ _) (steady_iotestsFdOpen _ _)).bind fun _ ↦
      .ite ?_ ?_
  · refine (ordered_lockPcapMutex (List.forall_mem_nil _)).bind fun _ ↦
      (LockOrder.Ordered.read _).bind fun dumper ↦ (ordered_pcapDump _ _ _).bind fun _ ↦
      ordered_unlockPcapMutex.bind fun _ ↦ ?_
    exact ordered_monitorIncrement _ _
  · exact (LockOrder.Ordered.read _).bind fun id ↦
      .modify (fun w ↦ (sparesLocks_of_eq rfl rfl).spares) fun _ ↦ rfl

theorem ordered_distributePacket (header : PcapPkthdr) (slots : List Slot) :
    lockOrder.Ordered (.session i) (distributePacket i header slots) [] [] := by
  induction slots with
  | nil => exact .pure ()
  | cons j slots ih =>
    refine (LockOrder.Ordered.read _).bind fun client ↦ ?_
    cases client with
    | none => exact ih
    | some client => exact (ordered_clientHandlePacket client header).bind fun _ ↦ ih

/-- **A packet handler takes its locks in order.** -/
theorem ordered_packetHandler {m : Module} {p : Packet} {handler : SessionProg Unit}
    (h : packetHandler i p m = some handler) :
    lockOrder.Ordered (.session i) handler [] [] := by
  have hfill : lockOrder.Ordered (.session i) (fillBuffer i p.data) [] [] :=
    .modify (fun w ↦ (sparesLocks_of_eq rfl rfl).spares) fun _ ↦ rfl
  have hcapture : lockOrder.Ordered (.session i) (capturePacket i p) [] [] :=
    hfill.bind fun _ ↦ (ordered_monitorIncrement _ _).bind fun _ ↦
      ordered_distributePacket p.header _
  cases m with
  | client =>
    cases h
    exact hfill.bind fun _ ↦ ordered_mergerPacketHandler p.header
  | livecapture =>
    cases h
    exact hcapture
  | filecapture =>
    cases h
    exact hcapture
  | clientconn => cases h
  | merger => cases h
  | server => cases h

theorem ordered_runner (m : Module) : lockOrder.Ordered me (runner m i) [] [] :=
  ordered_of_spares ((streams_runner m i).mono fun _ _ h ↦ h.toSparesLocks) (steady_runner i m)

/-- **The supervisor takes its locks in order.** -/
theorem ordered_superviseSession : lockOrder.Ordered .supervisor (superviseSession i) [] [] := by
  have hwrites : ∀ {α : Type} {p : SessionProg α}, p.Within (VisitWrites (fun _ ↦ True) i) →
      p.Steady → lockOrder.Ordered .supervisor p [] [] := fun h ↦
    ordered_of_spares ((puts_of_writes h).mono fun _ _ h ↦ h.toSparesLocks)
  have htransition : lockOrder.Ordered .supervisor (pcapsessionTransitionSession i) [] [] := by
    rw [pcapsessionTransitionSession_eq]
    refine (LockOrder.Ordered.read _).bind fun state ↦ hwrites ?_ (steady_transitionFrom i state)
    exact writes_transitionFrom (fun _ _ ↦ trivial) fun _ ↦ trivial
  have hflush : lockOrder.Ordered .supervisor (flushIdleDumper i) [] [] := by
    refine (LockOrder.Ordered.read _).bind fun monitor ↦ ?_
    cases monitor with
    | none => exact .pure ()
    | some monitor =>
      refine (LockOrder.Ordered.read _).bind fun dumper ↦ .ite ?_ (.pure ())
      refine (LockOrder.Ordered.read _).bind fun bytes ↦ .ite ?_ (.pure ())
      exact (ordered_lockPcapMutex (List.forall_mem_nil _)).bind fun _ ↦ ordered_unlockPcapMutex
  refine (LockOrder.Ordered.read _).bind fun state ↦ .ite (.pure false) ?_
  refine (hwrites (writes_orderAbort trivial) (steady_orderAbort i)).bind fun _ ↦
    (hwrites (writes_checkDescriptor trivial) (steady_checkDescriptor i)).bind fun _ ↦
      htransition.bind fun _ ↦ (LockOrder.Ordered.read _).bind fun state ↦ .ite ?_ (.pure true)
  exact hflush.bind fun _ ↦
    (hwrites writes_superviseMonitor (steady_superviseMonitor i)).bind fun _ ↦ .pure true

end Order

/-! ## The locks that are held -/

/-- What an agent has still to execute takes locks in order, after those that it holds. -/
def HoldsInOrder {α : Type} (me : Agent) (p : SessionProg α) (w : World) : Prop :=
  ∃ held, lockOrder.Ordered me p held [] ∧ lockOrder.HeldWithin me held w

/-- Locks are held by agents that have not been cancelled, and every agent takes them in order. -/
structure Machine.LocksInOrder (c : Machine) : Prop where
  /-- Who holds locks. -/
  kept : lockDiscipline.Kept c
  /-- The supervisor. -/
  visit : HoldsInOrder .supervisor c.visit c.world
  /-- The threads. -/
  thread : ∀ {t i m}, c.world.threads t = some (i, m) →
    HoldsInOrder (.session i) (c.pool t) c.world

section InOrder

variable {α : Type} {c c' : Machine} {w w' : World} {i : Slot} {t : ℕ} {me other : Agent}
  {p p' : SessionProg α} {z : ℤ} {a : Action}

theorem HoldsInOrder.of_takesAs (h : HoldsInOrder me p w) (htakes : lockOrder.TakesAs other w w')
    (hne : other ≠ me) : HoldsInOrder me p w' := by
  obtain ⟨held, hordered, hheld⟩ := h
  exact ⟨held, hordered, hheld.of_takesAs htakes hne⟩

theorem HoldsInOrder.of_spares (h : HoldsInOrder me p w) (hspares : lockOrder.Spares w w') :
    HoldsInOrder me p w' := by
  obtain ⟨held, hordered, hheld⟩ := h
  exact ⟨held, hordered, hheld.of_spares hspares⟩

theorem HoldsInOrder.next (h : HoldsInOrder me p w) (hnext : p.next z w = some (p', w')) :
    lockOrder.TakesAs me w w' ∧ HoldsInOrder me p' w' := by
  obtain ⟨held, hordered, hheld⟩ := h
  exact hordered.next hheld hnext

theorem holdsInOrder_of_free (hordered : lockOrder.Ordered me p [] [])
    (hfree : ¬ w.HoldsLock me) : HoldsInOrder me p w :=
  ⟨[], hordered, fun l hl ↦ absurd (holdsLock_iff.mpr ⟨l, hl⟩) hfree⟩

/-- **One action** keeps the order, unless it cancels a thread that holds a lock. -/
theorem Machine.LocksInOrder.step (h : c.LocksInOrder) (hcancels : c.CancelsLockFree c'.world)
    (hstep : c.step a = some c') : c'.LocksInOrder := by
  have hkept := lockDiscipline_lawful.step h.kept hcancels hstep
  cases a with
  | opens call answer =>
    obtain ⟨r, w', hexec, rfl⟩ := Machine.opens_cases hstep
    have heffect := openEffect_of_exec hexec
    have hspares := heffect.sparesLocks.spares
    refine ⟨hkept, h.visit.of_spares hspares, fun {t i m} ht ↦ ?_⟩
    have hold : c.world.threads t = some (i, m) := heffect.rest.2.2.2.1 ▸ ht
    exact (h.thread hold).of_spares hspares
  | visits i =>
    obtain ⟨hreturned, rfl⟩ := Machine.visits_cases hstep
    refine ⟨hkept, ?_, h.thread⟩
    -- a visit that has returned holds no lock
    obtain ⟨held, hordered, hheld⟩ := h.visit
    obtain ⟨counted, hvisit⟩ := Prog.eq_ret_of_returned hreturned
    rw [hvisit] at hordered
    obtain rfl : held = [] := hordered
    exact ⟨[], ordered_superviseSession, hheld⟩
  | supervises z =>
    obtain ⟨p, w', hnext, -, rfl⟩ := Machine.supervises_cases hstep
    obtain ⟨⟨i, hsupervises⟩, hsound⟩ := h.kept.sound.supervises hnext
    obtain ⟨htakes, hvisit⟩ := h.visit.next hnext
    refine ⟨hkept, hvisit, fun {t j m} ht ↦ ?_⟩
    change HoldsInOrder (.session j) (spawned c.world w' c.pool t) w'
    rcases hsupervises.thread_cases ht with hold | ⟨rfl, rfl, rfl, halone, -, -⟩
    · rw [spawned_of_some hold]
      exact (h.thread hold).of_takesAs htakes nofun
    · -- a session without a thread holds no lock
      rw [spawned_createThread h.kept.sound.orderly]
      refine holdsInOrder_of_free (ordered_runner m) fun hholds ↦ halone ?_
      obtain ⟨l, hl⟩ := holdsLock_iff.mp hholds
      have hbefore : lockOrder.holder l c.world = some (.session j) := by
        rcases htakes l with hsame | hnone | htaken
        · exact hsame ▸ hl
        · cases hnone.symm.trans hl
        · cases htaken.symm.trans hl
      obtain ⟨t, m', ht', -⟩ := h.kept.inv.2 (.session j) (holdsLock_iff.mpr ⟨l, hbefore⟩)
      exact ⟨t, m', ht'⟩
  | runs t z =>
    obtain ⟨i, m, p, w', -, ht, hnext, rfl⟩ := Machine.runs_cases hstep
    have hthread := (h.kept.sound.runs ht hnext).1
    obtain ⟨htakes, hown⟩ := (h.thread ht).next hnext
    refine ⟨hkept, h.visit.of_takesAs htakes nofun, fun {t' j m'} ht' ↦ ?_⟩
    have hold : c.world.threads t' = some (j, m') := hthread.threads ▸ ht'
    change HoldsInOrder (.session j) (Function.update c.pool t p t') w'
    by_cases htt : t' = t
    · obtain ⟨rfl, rfl⟩ := Prod.mk.inj (Option.some.inj ((htt ▸ hold).symm.trans ht))
      rw [htt, Function.update_self]
      exact hown
    · rw [Function.update_of_ne htt]
      refine (h.thread hold).of_takesAs htakes fun heq ↦ htt ?_
      obtain rfl := Agent.session.inj heq
      exact h.kept.sound.orderly.thread_unique ht hold
  | delivers t p =>
    obtain ⟨x, -, hx, rfl⟩ := Machine.delivers_cases hstep
    obtain ⟨i, m, k, handler, ht, hpool, hhandler, rfl⟩ := Machine.delivered_cases hx
    refine ⟨hkept, h.visit, fun {t' j m'} ht' ↦ ?_⟩
    change HoldsInOrder (.session j) (Function.update c.pool t _ t') c.world
    by_cases htt : t' = t
    · subst htt
      obtain ⟨rfl, rfl⟩ := Prod.mk.inj (Option.some.inj (ht.symm.trans ht'))
      rw [Function.update_self]
      -- a thread that waits for a packet holds no lock
      obtain ⟨held, hordered, hheld⟩ := h.thread ht
      rw [hpool] at hordered
      obtain rfl : held = [] := hordered.1
      exact ⟨[], (ordered_packetHandler hhandler).bind fun _ ↦ hordered, hheld⟩
    · rw [Function.update_of_ne htt]
      exact h.thread ht'
  | ends t =>
    obtain ⟨i, m, hends, ht, rfl⟩ := Machine.ends_cases hstep
    refine ⟨hkept, h.visit, fun {t' j m'} ht' ↦ ?_⟩
    change HoldsInOrder (.session j) (Function.update c.pool t (.ret ()) t') c.world
    by_cases htt : t' = t
    · subst htt
      rw [Function.update_self]
      -- a thread that has been cancelled holds no lock
      refine holdsInOrder_of_free rfl fun hholds ↦ ?_
      obtain ⟨t, m, ht, hcancelled⟩ := h.kept.inv.2 _ hholds
      obtain rfl := h.kept.sound.orderly.thread_unique ht' ht
      cases hcancelled.symm.trans hends.1
    · rw [Function.update_of_ne htt]
      exact h.thread ht'
  | closes =>
    cases hstep
    exact ⟨hkept, h.visit, h.thread⟩

theorem Machine.locksInOrder_init : Machine.init.LocksInOrder := by
  refine ⟨lockDiscipline_init, ⟨[], rfl, fun l hl ↦ ?_⟩, nofun⟩
  cases (holder_init l).symm.trans hl

end InOrder

/-! ## Who waits for whom -/

/-- The agent is about to take the lock, which is held. -/
def Machine.WaitsForLock (c : Machine) : Agent → Lock → Prop
  | .supervisor, l => lockOrder.Waits .supervisor l c.visit c.world
  | .session i, l => ∃ t m, c.world.threads t = some (i, m) ∧
      lockOrder.Waits (.session i) l (c.pool t) c.world

/-- The supervisor is about to join thread `t`, which has not ended. -/
def Machine.WaitsForEnd (c : Machine) (t : ℕ) : Prop :=
  (c.pool t).returned = false ∧ ∃ z p w', c.visit.next z c.world = some (p, w') ∧
    (c.world.threads t).isSome = true ∧ (w'.threads t).isNone = true

/-- The first agent waits for the second: for a lock that it holds, or for its thread to end. -/
def Machine.WaitsFor (c : Machine) (a b : Agent) : Prop :=
  lockOrder.WaitsFor c.WaitsForLock c.world a b ∨
    a = .supervisor ∧ ∃ t i m, b = .session i ∧ c.world.threads t = some (i, m) ∧ c.WaitsForEnd t

/-- The agent has a statement to execute. -/
def Machine.Active (c : Machine) : Agent → Prop
  | .supervisor => c.visit.returned = false
  | .session i => ∃ t m, c.world.threads t = some (i, m) ∧ (c.pool t).returned = false

/-- The next statement can be executed, whatever the environment answers, or the thread ends where
it is. -/
def Machine.GoesOn (c : Machine) : Agent → Prop
  | .supervisor => ∀ z, (c.step (.supervises z)).isSome = true
  | .session i => ∃ t m, c.world.threads t = some (i, m) ∧
      ((∀ z, (c.step (.runs t z)).isSome = true) ∨ (c.step (.ends t)).isSome = true)

/-- The next statement follows a null pointer. -/
def Machine.Crashes (c : Machine) : Agent → Prop
  | .supervisor => c.visit.Lost
  | .session i => ∃ t m, c.world.threads t = some (i, m) ∧ (c.pool t).Lost

section Waiting

variable {α : Type} {c c' : Machine} {w : World} {i : Slot} {m : Module} {t : ℕ} {a b : Agent}
  {l l' : Lock} {p : SessionProg α}

theorem not_ret_of_returned (h : p.returned = false) (x : α) : p ≠ .ret x := by
  rintro rfl
  cases h

theorem HoldsInOrder.rank_lt (h : HoldsInOrder a p w) (hwaits : lockOrder.Waits a l p w) {l' : Lock}
    (hl' : lockOrder.holder l' w = some a) : lockOrder.rank l' < lockOrder.rank l := by
  obtain ⟨held, hordered, hheld⟩ := h
  exact hordered.rank_lt hwaits (hheld l' hl')

/-- **Locks are waited for in order.** -/
theorem Machine.LocksInOrder.inOrder (h : c.LocksInOrder) :
    lockOrder.InOrder c.WaitsForLock c.world := by
  intro a l l' hwaits hl'
  cases a with
  | supervisor => exact h.visit.rank_lt hwaits hl'
  | session i =>
    obtain ⟨t, m, ht, hwaits⟩ := hwaits
    exact (h.thread ht).rank_lt hwaits hl'

theorem Machine.WaitsForLock.isSome (h : c.WaitsForLock a l) :
    (lockOrder.holder l c.world).isSome = true := by
  cases a with
  | supervisor =>
    obtain ⟨f, k, -, -, hheld⟩ := h
    exact hheld
  | session i =>
    obtain ⟨t, m, -, f, k, -, -, hheld⟩ := h
    exact hheld

/-- What waits for a lock does not end without taking one. -/
theorem not_lockFreeToEnd_of_waits {p : SessionProg Unit} (h : lockOrder.Waits a l p w) :
    ¬ LockFreeToEnd i m p := by
  obtain ⟨f, k, rfl, htakes, -⟩ := h
  intro hfree
  -- where no lock is held, the statement takes the lock
  cases hf : f World.init with
  | none =>
    have hheld := (htakes.waits World.init).mp hf
    rw [holder_init] at hheld
    cases hheld
  | some w₁ =>
    have htakesNone := (hfree World.init w₁ hf).1
    have hholds := htakesNone.holdsLock (holdsLock_iff.mpr ⟨l, htakes.taken _ _ hf⟩)
    obtain ⟨l', hl'⟩ := holdsLock_iff.mp hholds
    cases (holder_init l').symm.trans hl'

/-- A thread that is waited for has been cancelled, and takes no lock before it ends. -/
theorem Machine.LocksInOrder.lockFree (h : c.LocksInOrder) (hend : c.WaitsForEnd t)
    (ht : c.world.threads t = some (i, m)) :
    c.world.cancelled t = true ∧ LockFreeToEnd i m (c.pool t) := by
  obtain ⟨-, z, p, w', hnext, -, hgone⟩ := hend
  have hcancelled : c.world.cancelled t = true := by
    by_contra hcancelled
    rw [Bool.not_eq_true] at hcancelled
    obtain ⟨⟨k, hstep⟩, -⟩ := h.kept.sound.supervises hnext
    rw [hstep.threads_uncancelled h.kept.sound.orderly ht hcancelled] at hgone
    cases hgone
  exact ⟨hcancelled, (h.kept.thread ht).2 hcancelled⟩

theorem Machine.LocksInOrder.not_waitsForLock (h : c.LocksInOrder) (hend : c.WaitsForEnd t)
    (ht : c.world.threads t = some (i, m)) : ¬ c.WaitsForLock (.session i) l := by
  rintro ⟨t', m', ht', hwaits⟩
  obtain rfl := h.kept.sound.orderly.thread_unique ht ht'
  exact not_lockFreeToEnd_of_waits hwaits (h.lockFree hend ht).2

/-- The supervisor joins no thread while it holds a lock. -/
theorem Machine.LocksInOrder.not_waitsForEnd (h : c.LocksInOrder)
    (hl : lockOrder.holder l c.world = some .supervisor) : ¬ c.WaitsForEnd t := by
  rintro ⟨-, z, p, w', hnext, hthread, hgone⟩
  obtain ⟨held, hordered, hheld⟩ := h.visit
  have hinside : w'.threads = c.world.threads :=
    hordered.next_inside (List.ne_nil_of_mem (hheld l hl)) hnext
  rw [hinside, Option.isNone_iff_eq_none] at hgone
  rw [hgone] at hthread
  cases hthread

theorem Machine.mayEnd_of_waits (ht : c.world.threads t = some (i, m))
    (hcancelled : c.world.cancelled t = true) (hwaits : (c.pool t).waits = true) : c.MayEnd t := by
  obtain ⟨q, k, hpool⟩ := Prog.eq_ask_of_waits hwaits
  refine ⟨hcancelled, ?_⟩
  rw [ht, hpool]
  rfl

/-- The thread of a session goes on or ends, unless it waits for a lock or crashes. -/
theorem Machine.LocksInOrder.thread_goesOn (h : c.LocksInOrder)
    (ht : c.world.threads t = some (i, m)) (hreturned : (c.pool t).returned = false)
    (hwaits : ∀ l, ¬ c.WaitsForLock (.session i) l) :
    c.GoesOn (.session i) ∨ c.Crashes (.session i) := by
  by_cases hended : c.world.cancelled t = true ∧ (c.pool t).waits = true
  · refine .inl ⟨t, m, ht, .inr ?_⟩
    rw [Machine.step, if_pos (Machine.mayEnd_of_waits ht hended.1 hended.2)]
    rfl
  have halive : c.Alive t := by
    refine ⟨?_, hended⟩
    rw [ht]
    rfl
  obtain ⟨held, hordered, -⟩ := h.thread ht
  rcases hordered.goes_on (not_ret_of_returned hreturned) c.world with hnext | ⟨l, hl⟩ | hlost
  · refine .inl ⟨t, m, ht, .inl fun z ↦ ?_⟩
    rw [Machine.step, if_pos halive, Option.isSome_map]
    exact hnext z
  · exact absurd ⟨t, m, ht, hl⟩ (hwaits l)
  · exact .inr ⟨t, m, ht, hlost⟩

/-- The supervisor goes on, unless it waits for a lock or for the end of a thread or crashes. -/
theorem Machine.LocksInOrder.visit_goesOn (h : c.LocksInOrder)
    (hreturned : c.visit.returned = false)
    (hwaits : ∀ l, ¬ c.WaitsForLock .supervisor l) (hend : ∀ t, ¬ c.WaitsForEnd t) :
    c.GoesOn .supervisor ∨ c.Crashes .supervisor := by
  obtain ⟨held, hordered, -⟩ := h.visit
  rcases hordered.goes_on (not_ret_of_returned hreturned) c.world with hnext | ⟨l, hl⟩ | hlost
  · refine .inl fun z ↦ ?_
    obtain ⟨⟨p, w'⟩, hx⟩ := Option.isSome_iff_exists.mp (hnext z)
    have hjoinable : c.Joinable w' := by
      intro t _ hthread hgone
      by_contra hrunning
      rw [Bool.not_eq_true] at hrunning
      exact hend t ⟨hrunning, z, p, w', hx, hthread, hgone⟩
    rw [Machine.step, hx, Option.bind_some, if_pos hjoinable]
    rfl
  · exact absurd hl (hwaits l)
  · exact .inr hlost

theorem Machine.LocksInOrder.active (h : c.LocksInOrder)
    (hl : lockOrder.holder l c.world = some a) : c.Active a := by
  have hactive : ∀ {α : Type} {p : SessionProg α}, HoldsInOrder a p c.world →
      p.returned = false := by
    rintro α p ⟨held, hordered, hheld⟩
    cases p with
    | ret x =>
      obtain rfl : held = [] := hordered
      cases hheld l hl
    | act f k => rfl
    | ask q k => rfl
  cases a with
  | supervisor => exact hactive h.visit
  | session i =>
    obtain ⟨t, m, ht, -⟩ := h.kept.inv.2 _ (holdsLock_iff.mpr ⟨l, hl⟩)
    exact ⟨t, m, ht, hactive (h.thread ht)⟩

/-- An active agent that waits for no lock goes on, crashes or waits for a thread that does. -/
theorem Machine.LocksInOrder.goesOn (h : c.LocksInOrder) (hactive : c.Active a)
    (hwaits : ∀ l, ¬ c.WaitsForLock a l) :
    ∃ b, Relation.ReflTransGen c.WaitsFor a b ∧ (c.GoesOn b ∨ c.Crashes b) := by
  cases a with
  | supervisor =>
    by_cases hend : ∃ t, c.WaitsForEnd t
    · obtain ⟨t, hend⟩ := hend
      obtain ⟨hreturned, z, p, w', -, hthread, -⟩ := id hend
      obtain ⟨⟨i, m⟩, ht⟩ := Option.isSome_iff_exists.mp hthread
      exact ⟨.session i, .single (.inr ⟨rfl, t, i, m, rfl, ht, hend⟩),
        h.thread_goesOn ht hreturned fun _ ↦ h.not_waitsForLock hend ht⟩
    · exact ⟨.supervisor, .refl, h.visit_goesOn hactive hwaits (not_exists.mp hend)⟩
  | session i =>
    obtain ⟨t, m, ht, hreturned⟩ := hactive
    exact ⟨.session i, .refl, h.thread_goesOn ht hreturned hwaits⟩

/-- A chain of agents that wait for each other is a chain of locks, or the supervisor joins a
thread. -/
theorem Machine.LocksInOrder.chain_cases (h : c.LocksInOrder)
    (hchain : Relation.TransGen c.WaitsFor a b) :
    Relation.TransGen (lockOrder.WaitsFor c.WaitsForLock c.world) a b ∨
      a = .supervisor ∧ ∃ t i m, b = .session i ∧ c.world.threads t = some (i, m) ∧
        c.WaitsForEnd t := by
  induction hchain with
  | single hab => exact hab.imp .single id
  | tail _ hbc ih =>
    rcases ih with hlocks | ⟨-, t, i, m, rfl, ht, hend⟩
    · rcases hbc with hlock | ⟨rfl, t, i, m, -, -, hend⟩
      · exact .inl (hlocks.tail hlock)
      · obtain ⟨-, l, -, hl, -⟩ := h.inOrder.rank_le hlocks
        exact absurd hend (h.not_waitsForEnd hl)
    · rcases hbc with ⟨l, hwaits, -⟩ | ⟨hsupervisor, -⟩
      · exact absurd hwaits (h.not_waitsForLock hend ht)
      · cases hsupervisor

/-- An agent that waits for a lock holds at most the merge lock, and if it does it waits for a lock
around a dumper. -/
theorem Machine.LocksInOrder.nested (h : c.LocksInOrder) (hwaits : c.WaitsForLock a l)
    (hl' : lockOrder.holder l' c.world = some a) : l' = .merge ∧ ∃ j, l = .pcap j := by
  have hrank := h.inOrder a l l' hwaits hl'
  cases l with
  | merge => cases hrank
  | pcap j =>
    cases l' with
    | merge => exact ⟨rfl, j, rfl⟩
    | pcap j' => exact absurd hrank (lt_irrefl _)

end Waiting

theorem Machine.locksInOrder_of_run {as : List Action} {c : Machine}
    (hrun : Machine.init.run as = some c)
    (hcancels : ∀ as₁ a as₂ c₁ c₂, as = as₁ ++ a :: as₂ → Machine.init.run as₁ = some c₁ →
      c₁.step a = some c₂ → c₁.CancelsLockFree c₂.world) : c.LocksInOrder := by
  refine Machine.run_induction (P := fun c₁ a ↦ ∀ c₂, c₁.step a = some c₂ →
    c₁.CancelsLockFree c₂.world) (fun c₁ a c₂ hc₁ hP hstep ↦ hc₁.step (hP c₂ hstep) hstep) ?_
      Machine.locksInOrder_init hrun
  intro as₁ a as₂ c₁ has hrun₁ c₂ hstep
  exact hcancels as₁ a as₂ c₁ c₂ has hrun₁ hstep

/-- **No deadlock.** When threads are cancelled only while they hold no lock and take none before
they end, agents wait for a lock around a dumper with at most the merge lock held, and for the merge
lock with none. They never wait for each other in a circle, and following an agent that has
something to do, from whom it waits for to whom that one waits for, leads to one that goes on, ends
or crashes. -/
theorem agents_do_not_deadlock (as : List Action) (c : Machine)
    (hrun : Machine.init.run as = some c)
    (hcancels : ∀ as₁ a as₂ c₁ c₂, as = as₁ ++ a :: as₂ → Machine.init.run as₁ = some c₁ →
      c₁.step a = some c₂ → c₁.CancelsLockFree c₂.world) :
    (∀ a l l', c.WaitsForLock a l → lockOrder.holder l' c.world = some a →
      l' = .merge ∧ ∃ j, l = .pcap j) ∧
    (∀ a, ¬ Relation.TransGen c.WaitsFor a a) ∧
    ∀ a, c.Active a → ∃ b, Relation.ReflTransGen c.WaitsFor a b ∧ (c.GoesOn b ∨ c.Crashes b) := by
  have h := Machine.locksInOrder_of_run hrun hcancels
  refine ⟨fun _ _ _ ↦ h.nested, fun a hchain ↦ ?_, fun a hactive ↦ ?_⟩
  · rcases h.chain_cases hchain with hlocks | ⟨rfl, t, i, m, hsession, -, -⟩
    · exact h.inOrder.irrefl a hlocks
    · cases hsession
  · by_cases hwaits : ∃ l, c.WaitsForLock a l
    · obtain ⟨l, hl⟩ := hwaits
      obtain ⟨b, hb⟩ := Option.isSome_iff_exists.mp hl.isSome
      obtain ⟨b', l', hchain, hl', hfree⟩ :=
        h.inOrder.exists_last lockOrder_rank_le (fun _ _ ↦ Machine.WaitsForLock.isSome) hb
      obtain ⟨b'', hchain', hgoes⟩ := h.goesOn (h.active hl') hfree
      have hmono : Relation.ReflTransGen c.WaitsFor b b' :=
        hchain.lift id fun _ _ ↦ .inl
      exact ⟨b'', .head (.inl ⟨l, hl, hb⟩) (hmono.trans hchain'), hgoes⟩
    · exact h.goesOn hactive (not_exists.mp hwaits)

/-- A client is restarted, and its second thread writes a packet under the merge lock. -/
theorem agents_do_not_deadlock_restarted :
    ∃ as c, Machine.init.run as = some c ∧ c.world.cancelled 2 = true ∧
      c.world.mergeMutex = some (.session 1) ∧
      ∃ b, Relation.ReflTransGen c.WaitsFor (.session 1) b ∧ (c.GoesOn b ∨ c.Crashes b) := by
  let packet : Packet := ⟨⟨0, 0, 0, 0⟩, fun _ ↦ 0⟩
  let as : List Action :=
    [[.opens (.merger false) fun _ ↦ 0, .opens (.client (some 0)) fun _ ↦ 0], silentVisit 0 12,
      silentRuns 1 3, [.runs 1 3], silentRuns 1 3, silentVisit 1 12, silentRuns 2 5,
      silentVisit 1 20, silentVisit 1 12, [.runs 3 0, .runs 3 5], silentRuns 3 8,
      [.delivers 3 packet], silentRuns 3 6].flatten
  have hruns : ((Machine.init.run as).map fun c ↦ (c.world.cancelled 2, c.world.mergeMutex,
      decide (c.world.threads 3 = some (1, .client)), (c.pool 3).returned))
      = some (true, some (.session 1), true, false) := by
    decide +kernel
  have hsteps : ∀ n < as.length, ((Machine.init.run (as.take n)).bind fun c₁ ↦
      (Machine.init.run (as.take (n + 1))).map fun c₂ ↦ decide (∀ t < c₁.world.nextThread,
        c₁.world.cancelled t = false → c₂.world.cancelled t = true →
          c₁.CancelsHarmlessly t)) = some true := by
    decide +kernel
  obtain ⟨c, hrun, hresult⟩ := Option.map_eq_some_iff.mp hruns
  simp only [Prod.mk.injEq] at hresult
  obtain ⟨hcancelled, hmerge, hthread, hreturned⟩ := hresult
  refine ⟨as, c, hrun, hcancelled, hmerge, ?_⟩
  refine (agents_do_not_deadlock as c hrun fun as₁ a as₂ c₁ c₂ has hrun₁ hstep ↦ ?_).2.2
    (.session 1) ⟨3, .client, of_decide_eq_true hthread, hreturned⟩
  refine Machine.cancelsLockFree_of_run hrun₁ ?_
  exact Machine.all_steps_of_take (p := fun c₁ c₂ ↦ ∀ t < c₁.world.nextThread,
    c₁.world.cancelled t = false → c₂.world.cancelled t = true → c₁.CancelsHarmlessly t) hsteps has
      hrun₁ hstep

end DistributorMerger
