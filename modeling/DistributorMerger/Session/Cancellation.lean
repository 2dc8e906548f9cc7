import DistributorMerger.Concurrency.Unstuck
import DistributorMerger.Session.Discipline
import DistributorMerger.Session.Locks

/-!
# Cancelled threads and locks

A thread that is cancelled goes on for a while before it ends, and takes the locks that it holds
then with it. `pcap_dump` writes to a file between lock and unlock, and such a write may be where a
thread ends; a thread of a client that is cancelled there leaves the merge lock and the lock around
the merger's dumper locked for good. So does one that is cancelled between two packets, when
`pcap_loop` has buffered another packet for its handler.

When every thread is cancelled at a moment when it holds no lock and takes none any more before it
ends for certain, locks are held only by threads that have not been cancelled. The handler of a
capture polls before it locks, so a capture may be cancelled between two packets.
-/

namespace DistributorMerger

/-! ## Up to the end of a thread -/

/-- No lock is taken. -/
structure TakesNoLock (w w' : World) : Prop where
  /-- The merge lock. -/
  merge : w'.mergeMutex = w.mergeMutex ∨ w'.mergeMutex = none
  /-- The locks around dumpers. -/
  pcap : ∀ j, (w'.session j).pcapMutex = (w.session j).pcapMutex ∨
    (w'.session j).pcapMutex = none

/-- The program takes no lock before a call that no cancelled thread comes back from. At any other
cancellation point it may end or go on; at `pcap_loop` it may also be given a packet, which is
handled without a lock if `handled` holds. -/
def LockFree {α : Type} (handled : Prop) : SessionProg α → Prop
  | .ret _ => True
  | .ask q k => q.waits = true ∨ (q = .pcapLoop → handled) ∧ ∀ z, LockFree handled (k z)
  | .act f k => ∀ w w', f w = some w' → TakesNoLock w w' ∧ LockFree handled (k w)

/-- The packet handler of a session takes no lock before a call that no cancelled thread comes back
from. -/
def HandlesLockFree (i : Slot) (m : Module) : Prop :=
  ∀ p handler, packetHandler i p m = some handler → LockFree False handler

/-- What the thread of a session executes takes no lock before the thread has ended, if it is
cancelled. -/
def LockFreeToEnd (i : Slot) (m : Module) : SessionProg Unit → Prop :=
  LockFree (HandlesLockFree i m)

/-- The supervisor is never cancelled; a session is not when its thread is there and has not been.
-/
def World.Uncancelled (w : World) : Agent → Prop
  | .supervisor => True
  | .session i => ∃ t m, w.threads t = some (i, m) ∧ w.cancelled t = false

/-- A thread whose cancellation is requested holds no lock, and takes none before it ends. -/
def Machine.CancelsLockFree (c : Machine) (w' : World) : Prop :=
  ∀ t i m, c.world.threads t = some (i, m) → c.world.cancelled t = false → w'.cancelled t = true →
    ¬ c.world.HoldsLock (.session i) ∧ LockFreeToEnd i m (c.pool t)

section LockFree

variable {α β : Type} {handled handled' : Prop} {w w' : World} {me holder : Agent}
  {p p' : SessionProg α} {z : ℤ}

theorem SparesLocks.takesNoLock (h : SparesLocks w w') : TakesNoLock w w' :=
  ⟨.inl h.merge, fun j ↦ (h.pcap j).imp id (·.2)⟩

theorem LockFree.pure (a : α) : LockFree handled (pure a : SessionProg α) := trivial

theorem LockFree.read (g : World → α) : LockFree handled (Prog.read g : SessionProg α) :=
  fun _ _ hw ↦ Option.some.inj hw ▸ ⟨⟨.inl rfl, fun _ ↦ .inl rfl⟩, trivial⟩

theorem LockFree.modify {f : World → World} (h : ∀ w, SparesLocks w (f w)) :
    LockFree handled (Prog.modify f : SessionProg Unit) :=
  fun w _ hw ↦ Option.some.inj hw ▸ ⟨(h w).takesNoLock, trivial⟩

theorem LockFree.bind {g : α → SessionProg β} (hp : LockFree handled p)
    (hg : ∀ a, LockFree handled (g a)) : LockFree handled (p >>= g) := by
  induction p with
  | ret a => exact hg a
  | act f k ih => exact fun w w' hw ↦ ⟨(hp w w' hw).1, ih w (hp w w' hw).2⟩
  | ask q k ih =>
    rcases hp with hwaits | ⟨hloop, hk⟩
    · exact .inl hwaits
    · exact .inr ⟨hloop, fun z ↦ ih z (hk z)⟩

theorem LockFree.ite {c : Prop} [Decidable c] (hp : LockFree handled p)
    (hp' : LockFree handled p') : LockFree handled (if c then p else p') := by
  split
  · exact hp
  · exact hp'

theorem LockFree.mono (h : LockFree handled p) (hhandled : handled → handled') :
    LockFree handled' p := by
  induction p with
  | ret a => trivial
  | act f k ih => exact fun w w' hw ↦ ⟨(h w w' hw).1, ih w (h w w' hw).2⟩
  | ask q k ih =>
    rcases h with hwaits | ⟨hloop, hk⟩
    · exact .inl hwaits
    · exact .inr ⟨fun hq ↦ hhandled (hloop hq), fun z ↦ ih z (hk z)⟩

theorem lockFree_of_within (h : p.Within SparesLocks) : LockFree True p := by
  induction p with
  | ret a => trivial
  | act f k ih => exact fun w w' hw ↦ ⟨(h.1 w w' hw).takesNoLock, ih w (h.2 w)⟩
  | ask q k ih => exact .inr ⟨fun _ ↦ trivial, fun z ↦ ih z (h z)⟩

theorem LockFree.next (h : LockFree handled p) (hwaits : p.waits = false)
    (hnext : p.next z w = some (p', w')) : TakesNoLock w w' ∧ LockFree handled p' := by
  cases p with
  | ret a => cases hnext
  | act f k =>
    obtain ⟨w₁, hf, heq⟩ := Option.map_eq_some_iff.mp hnext
    cases heq
    exact h w w' hf
  | ask q k =>
    cases hnext
    rcases h with hq | ⟨-, hk⟩
    · cases hq.symm.trans hwaits
    · exact ⟨⟨.inl rfl, fun _ ↦ .inl rfl⟩, hk z⟩

/-- Another packet is handled. -/
theorem LockFreeToEnd.delivers {k : ℤ → SessionProg Unit} {i : Slot} {m : Module} {packet : Packet}
    {handler : SessionProg Unit} (h : LockFreeToEnd i m (.ask .pcapLoop k))
    (hhandler : packetHandler i packet m = some handler) :
    LockFreeToEnd i m (handler >>= fun _ ↦ .ask .pcapLoop k) := by
  rcases id h with hwaits | ⟨hhandles, -⟩
  · cases hwaits
  · exact ((hhandles rfl packet handler hhandler).mono False.elim).bind fun _ ↦ h

theorem TakesNoLock.holdsLock (h : TakesNoLock w w') (hholds : w'.HoldsLock holder) :
    w.HoldsLock holder := by
  rcases hholds with hmerge | ⟨j, hpcap⟩
  · rcases h.merge with hsame | hnone
    · exact .inl (hsame ▸ hmerge)
    · rw [hnone] at hmerge
      cases hmerge
  · rcases h.pcap j with hsame | hnone
    · exact .inr ⟨j, hsame ▸ hpcap⟩
    · rw [hnone] at hpcap
      cases hpcap

theorem LocksAs.holdsLock (h : LocksAs me w w') (hholds : w'.HoldsLock holder) (hme : holder ≠ me) :
    w.HoldsLock holder := by
  rcases hholds with hmerge | ⟨j, hpcap⟩
  · rcases h.merge with hsame | hnone | htaken
    · exact .inl (hsame ▸ hmerge)
    · rw [hnone] at hmerge
      cases hmerge
    · exact absurd (Option.some.inj (hmerge.symm.trans htaken)) hme
  · rcases h.pcap j with hsame | hnone | htaken
    · exact .inr ⟨j, hsame ▸ hpcap⟩
    · rw [hnone] at hpcap
      cases hpcap
    · exact absurd (Option.some.inj (hpcap.symm.trans htaken)) hme

end LockFree

/-! ## Threads and cancellations -/

section Threads

variable {i j : Slot} {w w' : World} {m : Module} {t : ℕ} {holder : Agent}

theorem ThreadStep.cancelled (h : ThreadStep i m w w') : w'.cancelled = w.cancelled := by
  rcases h with h | h
  · exact (h.rest (i := i)).2.1
  · rw [h.rest]

/-- A thread that has not been cancelled is not joined. -/
theorem SupervisorStep.threads_uncancelled (h : SupervisorStep i w w') (hw : Orderly w)
    (ht : w.threads t = some (j, m)) (hcancelled : w.cancelled t = false) :
    w'.threads t = some (j, m) := by
  cases h with
  | tends h =>
    rw [h.rest]
    exact ht
  | creates m' =>
    rw [World.threads_createThread, if_neg (hw.thread_lt ht).ne]
    exact ht
  | joins _ hjoined =>
    rw [World.threads_joinThread, if_neg]
    · exact ht
    · rintro rfl
      rw [hjoined] at hcancelled
      cases hcancelled
  | _ => exact ht

theorem World.Uncancelled.of_eq (h : w.Uncancelled holder) (hthreads : w'.threads = w.threads)
    (hcancelled : w'.cancelled = w.cancelled) : w'.Uncancelled holder := by
  cases holder with
  | supervisor => trivial
  | session i =>
    obtain ⟨t, m, ht, hc⟩ := h
    exact ⟨t, m, hthreads ▸ ht, hcancelled ▸ hc⟩

/-- The threads that are on record or cancelled have been created. -/
structure Numbered (w : World) : Prop where
  /-- The threads on record. -/
  thread : ∀ j, (w.session j).thread < w.nextThread
  /-- The cancelled ones. -/
  cancelled : ∀ t, w.cancelled t = true → t < w.nextThread

theorem Numbered.of_eq (h : Numbered w) (hpos : 0 < w.nextThread)
    (hnext : w'.nextThread = w.nextThread) (hcancelled : w'.cancelled = w.cancelled)
    (hthread : ∀ j, (w'.session j).thread = (w.session j).thread ∨ (w'.session j).thread = 0) :
    Numbered w' where
  thread := by
    intro j
    rw [hnext]
    rcases hthread j with hsame | hzero
    · exact hsame ▸ h.thread j
    · exact hzero ▸ hpos
  cancelled := by
    rw [hnext, hcancelled]
    exact h.cancelled

theorem unmoved_thread (s s' : Session) (h : s.Unmoved s') : s'.thread = s.thread := by
  rw [h]

theorem World.thread_modifySession {f : Session → Session} (hf : ∀ s, (f s).thread = s.thread) :
    ((w.modifySession i f).session j).thread = (w.session j).thread := by
  by_cases hj : j = i
  · subst hj
    rw [World.session_modifySession_self, hf]
  · rw [World.session_modifySession_of_ne _ hj]

theorem World.thread_place {s : Session} (hs : s.thread = 0) :
    ((w.place i s).session j).thread = (w.session j).thread ∨
      ((w.place i s).session j).thread = 0 := by
  rw [World.place]
  by_cases hj : j = i
  · subst hj
    exact .inr (by rw [World.session_modifySession_self, hs])
  · exact .inl (by rw [World.session_modifySession_of_ne _ hj])

theorem OpenEffect.thread_eq_or_zero (h : OpenEffect w w') (j : Slot) :
    (w'.session j).thread = (w.session j).thread ∨ (w'.session j).thread = 0 := by
  cases h with
  | full => exact .inl rfl
  | refused k m hk => exact World.thread_place rfl
  | plain k s hk hs =>
    refine World.thread_place ?_
    rcases hs with hs | hs | hs <;> exact (congrArg Session.thread hs).trans rfl
  | server k fd => exact World.thread_place (w := w.openFd fd .listening) rfl
  | livecapture k fd => exact World.thread_place (w := w.openFd fd .capture) rfl

theorem AcceptEffect.thread_eq_or_zero (h : AcceptEffect w w') (j : Slot) :
    (w'.session j).thread = (w.session j).thread ∨ (w'.session j).thread = 0 := by
  cases h with
  | nothing => exact .inl rfl
  | rejected fd =>
    rw [World.close_session, (World.initClientconnlist_session _).1]
    exact .inl rfl
  | accepted k fd =>
    have hplace := World.thread_place (w := (w.openFd fd .connection).initClientconnlist) (i := k)
      (j := j) (s := { Session.opened .clientconn k with fd := fd, superviseFd := true }) rfl
    rwa [(World.initClientconnlist_session _).1] at hplace

theorem RunnerStep.thread_eq_or_zero (h : RunnerStep i m w w') (j : Slot) :
    (w'.session j).thread = (w.session j).thread ∨ (w'.session j).thread = 0 := by
  cases h.effect with
  | writes newState => exact .inl (World.thread_modifySession fun _ ↦ rfl)
  | keeps h => exact .inl (h.session j).2.1
  | accepts h => exact h.thread_eq_or_zero j

theorem SupervisorStep.numbered (h : SupervisorStep i w w') (hw : Orderly w)
    (hnumbered : Numbered w) : Numbered w' := by
  have hpos := hw.lifecycle.nextThread_pos
  cases h with
  | tends h =>
    refine hnumbered.of_eq hpos ?_ ?_ fun j ↦ .inl (unmoved_thread _ _ (h.session j)) <;>
      rw [h.rest]
  | creates m =>
    refine ⟨fun j ↦ ?_, fun t ht ↦ Nat.lt_succ_of_lt (hnumbered.cancelled t ht)⟩
    by_cases hj : j = i
    · rw [hj, World.session_createThread_self]
      exact Nat.lt_succ_self _
    · rw [World.session_createThread_of_ne _ _ hj]
      exact Nat.lt_succ_of_lt (hnumbered.thread j)
  | cancels =>
    refine ⟨hnumbered.thread, fun t ht ↦ ?_⟩
    by_cases hown : t = (w.session i).thread
    · exact hown ▸ hnumbered.thread i
    · exact hnumbered.cancelled t ((Function.update_of_ne hown _ _).symm.trans ht)
  | forgets =>
    refine hnumbered.of_eq hpos rfl rfl fun j ↦ ?_
    by_cases hj : j = i
    · subst hj
      exact .inr (by rw [World.session_modifySession_self])
    · exact .inl (by rw [World.session_modifySession_of_ne _ hj])
  | pauses => exact hnumbered
  | joins => exact ⟨hnumbered.thread, hnumbered.cancelled⟩
  | unlists => exact ⟨hnumbered.thread, hnumbered.cancelled⟩
  | closesDumper => exact ⟨hnumbered.thread, hnumbered.cancelled⟩
  | closesHandle => exact ⟨hnumbered.thread, hnumbered.cancelled⟩
  | closesFd => exact ⟨hnumbered.thread, hnumbered.cancelled⟩
  | _ =>
    exact hnumbered.of_eq hpos rfl rfl fun j ↦ .inl (World.thread_modifySession fun _ ↦ rfl)

theorem ThreadStep.numbered (h : ThreadStep i m w w') (hw : Orderly w) (hnumbered : Numbered w) :
    Numbered w' := by
  refine hnumbered.of_eq hw.lifecycle.nextThread_pos ?_ h.cancelled fun j ↦ ?_
  · rcases h with h | h
    · exact h.threads.2
    · exact h.keepsLifecycle.nextThread
  · rcases h with h | h
    · exact h.thread_eq_or_zero j
    · exact .inl (unmoved_thread _ _ (h.session j))

end Threads

/-! ## Between two packets -/

/-- What comes behind `pcap_loop` takes no lock. -/
def ComesBackLockFree : SessionProg Unit → Prop
  | .ret _ => True
  | .ask q k => (q = .pcapLoop → ∀ z, LockFree True (k z)) ∧ ∀ z, ComesBackLockFree (k z)
  | .act _ k => ∀ w, ComesBackLockFree (k w)

/-- The questions that a packet handler asks. -/
def handlerContract : Contract Query World where
  idle := fun _ ↦ False
  asks := fun q ↦ q ≠ .pcapLoop
  rely := fun _ _ ↦ True
  condition := fun _ _ ↦ True
  guarantee := fun _ _ ↦ True

section Packets

variable {α : Type} {i j : Slot} {m : Module} {w w' : World} {p p' rest : SessionProg Unit} {z : ℤ}
  {k : ℤ → SessionProg Unit} {packet : Packet} {handler : SessionProg Unit}

/-- The handler polls a client before it locks the dumper. -/
theorem lockFree_clientHandlePacket (client : Slot) (header : PcapPkthdr) :
    LockFree False (pcapsessionClientconnClientHandlePacket i client header) :=
  (LockFree.read _).bind fun _ ↦ .ite ((LockFree.read _).bind fun _ ↦ .inl rfl) (.pure ())

theorem lockFree_distributePacket (header : PcapPkthdr) (slots : List Slot) :
    LockFree False (distributePacket i header slots) := by
  induction slots with
  | nil => exact .pure ()
  | cons j slots ih =>
    refine (LockFree.read _).bind fun client ↦ ?_
    cases client with
    | none => exact ih
    | some client => exact (lockFree_clientHandlePacket client header).bind fun _ ↦ ih

/-- **The handler of a capture** takes no lock before it polls. -/
theorem handlesLockFree (hm : m ≠ .client) : HandlesLockFree i m := by
  have hfill : ∀ data, LockFree False (fillBuffer i data) := fun _ ↦
    .modify fun _ ↦ sparesLocks_of_eq rfl rfl
  have hcount : ∀ packets bytes, LockFree False (monitorIncrement i packets bytes) := fun _ _ ↦
    .modify fun _ ↦ sparesLocks_modifySession rfl rfl fun _ ↦ rfl
  have hcapture : ∀ p, LockFree False (capturePacket i p) := fun p ↦
    (hfill p.data).bind fun _ ↦ (hcount _ _).bind fun _ ↦ lockFree_distributePacket p.header _
  intro p handler h
  cases m with
  | client => exact absurd rfl hm
  | livecapture =>
    cases h
    exact hcapture p
  | filecapture =>
    cases h
    exact hcapture p
  | clientconn => cases h
  | merger => cases h
  | server => cases h

/-- **The handler of a client** begins with the merge lock, so a client that waits for a packet may
still take it. -/
theorem not_lockFreeToEnd_client : ¬ LockFreeToEnd i .client (.ask .pcapLoop k) := by
  intro h
  let packet : Packet := ⟨⟨0, 0, 0, 0⟩, fun _ ↦ 0⟩
  let w : World := World.init.modifySession i ({ · with handler := some 0 })
  rcases h with hwaits | ⟨hhandles, -⟩
  · cases hwaits
  have hhandler := ((hhandles rfl packet _ rfl) w _ rfl).2
  have hlock := (hhandler w w rfl).2
  dsimp only [w] at hlock
  rw [World.session_modifySession_self] at hlock
  rcases (hlock World.init _ rfl).1.merge with h | h <;> cases h

theorem nimble_pcapDump (dumper : Option PcapDumper) (header : PcapPkthdr)
    (data : World → Memory) : (pcapDump dumper i header data).Nimble handlerContract := by
  cases dumper with
  | none => exact ⟨fun _ ↦ False.elim, fun _ ↦ trivial⟩
  | some dumper => exact (Prog.Nimble.modify _).bind fun _ ↦ .modify _

theorem nimble_mergerPacketHandler (header : PcapPkthdr) :
    (pcapsessionMergerPacketHandler i header).Nimble handlerContract := by
  refine (Prog.Nimble.read _).bind fun merger ↦ ?_
  cases merger with
  | none => exact .pure ()
  | some merger =>
    have huntunnelled : (untunnelledHeader merger i header).Nimble handlerContract :=
      (Prog.Nimble.read _).bind fun _ ↦ .ite (.update _ _) (.pure header)
    refine (Prog.Nimble.await fun _ ↦ False.elim).bind fun _ ↦ huntunnelled.bind fun newHeader ↦
      (Prog.Nimble.await fun _ ↦ False.elim).bind fun _ ↦ (Prog.Nimble.read _).bind fun dumper ↦
        (nimble_pcapDump _ _ _).bind fun _ ↦ ?_
    exact (Prog.Nimble.modify _).bind fun _ ↦ (Prog.Nimble.modify _).bind fun _ ↦
      (Prog.Nimble.modify _).bind fun _ ↦ .modify _

theorem nimble_clientHandlePacket (client : Slot) (header : PcapPkthdr) :
    (pcapsessionClientconnClientHandlePacket i client header).Nimble handlerContract := by
  have hpoll : ∀ fd, (iotestsFdOpen (.pollDeliver client) fd).Nimble handlerContract := fun fd ↦
    (Prog.Nimble.query (nofun : Query.pollDeliver client ≠ .pcapLoop)).bind fun _ ↦ .read _
  refine (Prog.Nimble.read _).bind fun _ ↦ .ite ((Prog.Nimble.read _).bind fun fd ↦
    (hpoll fd).bind fun _ ↦ .ite ?_ ((Prog.Nimble.read _).bind fun _ ↦ .modify _)) (.pure ())
  exact (Prog.Nimble.await fun _ ↦ False.elim).bind fun _ ↦ (Prog.Nimble.read _).bind fun _ ↦
    (nimble_pcapDump _ _ _).bind fun _ ↦ (Prog.Nimble.modify _).bind fun _ ↦ .modify _

theorem nimble_distributePacket (header : PcapPkthdr) (slots : List Slot) :
    (distributePacket i header slots).Nimble handlerContract := by
  induction slots with
  | nil => exact .pure ()
  | cons j slots ih =>
    refine (Prog.Nimble.read _).bind fun client ↦ ?_
    cases client with
    | none => exact ih
    | some client => exact (nimble_clientHandlePacket client header).bind fun _ ↦ ih

theorem nimble_packetHandler (h : packetHandler i packet m = some handler) :
    handler.Nimble handlerContract := by
  have hcapture : (capturePacket i packet).Nimble handlerContract :=
    (Prog.Nimble.modify _).bind fun _ ↦ (Prog.Nimble.modify _).bind fun _ ↦
      nimble_distributePacket packet.header _
  cases m with
  | client =>
    cases h
    exact (Prog.Nimble.modify _).bind fun _ ↦ nimble_mergerPacketHandler packet.header
  | livecapture =>
    cases h
    exact hcapture
  | filecapture =>
    cases h
    exact hcapture
  | clientconn => cases h
  | merger => cases h
  | server => cases h

theorem comesBackLockFree_of_within (h : p.Within SparesLocks) : ComesBackLockFree p := by
  induction p with
  | ret a => trivial
  | act f k ih => exact fun w ↦ ih w (h.2 w)
  | ask q k ih => exact ⟨fun _ z ↦ lockFree_of_within (h z), fun z ↦ ih z (h z)⟩

theorem ComesBackLockFree.bind (hp : p.Nimble handlerContract) (hrest : ComesBackLockFree rest) :
    ComesBackLockFree (p >>= fun _ ↦ rest) := by
  induction p with
  | ret a => exact hrest
  | act f k ih => exact fun w ↦ ih w (hp.2 w)
  | ask q k ih => exact ⟨fun hq ↦ absurd hq hp.1, fun z ↦ ih z (hp.2 z)⟩

theorem ComesBackLockFree.next (h : ComesBackLockFree p) (hnext : p.next z w = some (p', w')) :
    ComesBackLockFree p' := by
  cases p with
  | ret a => cases hnext
  | act f k =>
    obtain ⟨w₁, -, heq⟩ := Option.map_eq_some_iff.mp hnext
    cases heq
    exact h w
  | ask q k =>
    cases hnext
    exact h.2 z

/-- Threads that come back from `pcap_loop` take no lock. -/
def loopDiscipline : Discipline where
  inv := fun _ ↦ True
  visit := fun _ _ ↦ True
  thread := fun _ _ _ p _ ↦ ComesBackLockFree p

theorem loopDiscipline_lawful : loopDiscipline.Lawful fun _ _ ↦ True where
  opens := fun hc _ _ ↦ ⟨trivial, trivial, hc.thread⟩
  visits := fun _ _ _ ↦ trivial
  supervises := fun hc _ _ _ ↦ ⟨trivial, trivial, hc.thread⟩
  creates := fun _ _ _ _ _ ↦
    comesBackLockFree_of_within ((streams_runner _ _).mono fun _ _ h ↦ h.toSparesLocks)
  runs := fun hc _ _ ht _ hnext ↦
    ⟨trivial, trivial, (hc.thread ht).next hnext, fun ht' _ _ ↦ hc.thread ht'⟩
  delivers := fun hc _ ht hpool hhandler ↦
    .bind (nimble_packetHandler hhandler) (hpool ▸ hc.thread ht)
  ends := fun _ _ _ ↦ trivial
  closes := fun hc ↦ ⟨trivial, trivial, hc.thread⟩

/-- **A capture may be cancelled between two packets**: what it executes before it ends takes no
lock. -/
theorem lockFreeToEnd_of_pcapLoop {as : List Action} {c : Machine} {t : ℕ}
    (hrun : Machine.init.run as = some c) (ht : c.world.threads t = some (i, m))
    (hm : m ≠ .client) (hpool : c.pool t = .ask .pcapLoop k) : LockFreeToEnd i m (c.pool t) := by
  have hkept : loopDiscipline.Kept c := by
    refine loopDiscipline_lawful.run ⟨Machine.sound_init, trivial, trivial, nofun⟩ ?_ hrun
    exact fun _ _ _ _ _ _ _ _ ↦ trivial
  have hback : ComesBackLockFree (c.pool t) := hkept.thread ht
  rw [hpool] at hback ⊢
  exact .inr ⟨fun _ ↦ handlesLockFree hm, fun z ↦ (hback.1 rfl z).mono fun _ ↦ handlesLockFree hm⟩

end Packets

/-- The program waits for a packet. -/
def Prog.inLoop : SessionProg Unit → Bool
  | .ask .pcapLoop _ => true
  | _ => false

theorem Prog.eq_ask_of_inLoop {p : SessionProg Unit} (h : p.inLoop = true) :
    ∃ k, p = .ask .pcapLoop k := by
  cases p with
  | ret a => cases h
  | act f k => cases h
  | ask q k =>
    obtain rfl : q = .pcapLoop := by
      cases q <;> first | rfl | cases h
    exact ⟨k, rfl⟩

/-- The thread holds no lock, and has returned or waits for a packet for a capture. -/
def Machine.CancelsHarmlessly (c : Machine) (t : ℕ) : Prop :=
  ∀ x ∈ c.world.threads t, ¬ c.world.HoldsLock (.session x.1) ∧
    ((c.pool t).returned = true ∨ x.2 ≠ .client ∧ (c.pool t).inLoop = true)

instance (c : Machine) (t : ℕ) : Decidable (c.CancelsHarmlessly t) := by
  unfold Machine.CancelsHarmlessly
  infer_instance

theorem Machine.cancelsLockFree_of_run {as : List Action} {c : Machine} {w' : World}
    (hrun : Machine.init.run as = some c)
    (hcancels : ∀ t < c.world.nextThread, c.world.cancelled t = false → w'.cancelled t = true →
      c.CancelsHarmlessly t) : c.CancelsLockFree w' := by
  intro t i m ht hbefore hnow
  have hlt := (Machine.sound_of_run hrun).orderly.thread_lt ht
  obtain ⟨hlocks, hreturned | ⟨hm, hloop⟩⟩ := hcancels t hlt hbefore hnow (i, m) ht
  · obtain ⟨a, hpool⟩ := Prog.eq_ret_of_returned hreturned
    refine ⟨hlocks, ?_⟩
    rw [hpool]
    trivial
  · obtain ⟨k, hpool⟩ := Prog.eq_ask_of_inLoop hloop
    exact ⟨hlocks, lockFreeToEnd_of_pcapLoop hrun ht hm hpool⟩

/-! ## The discipline -/

/-- Locks are held by agents that have not been cancelled. -/
def lockDiscipline : Discipline where
  inv := fun w ↦ Numbered w ∧ ∀ holder, w.HoldsLock holder → w.Uncancelled holder
  visit := fun p _ ↦ p.Within (LocksAs .supervisor)
  thread := fun t i m p w ↦ p.Within (LocksAs (.session i)) ∧
    (w.cancelled t = true → LockFreeToEnd i m p)

theorem lockDiscipline_lawful : lockDiscipline.Lawful Machine.CancelsLockFree where
  opens := by
    intro c w' hc _ heffect
    obtain ⟨-, hcancelled, -, hthreads, hnext⟩ := heffect.rest
    have hpos := hc.sound.orderly.lifecycle.nextThread_pos
    have hnumbered := hc.inv.1.of_eq hpos hnext hcancelled heffect.thread_eq_or_zero
    refine ⟨⟨hnumbered, fun holder hholds ↦ ?_⟩, hc.visit, fun ht ↦ ⟨(hc.thread ht).1, ?_⟩⟩
    · have hheld := heffect.sparesLocks.takesNoLock.holdsLock hholds
      exact (hc.inv.2 holder hheld).of_eq hthreads hcancelled
    · rw [hcancelled]
      exact (hc.thread ht).2
  visits := fun _ _ _ ↦ locksAs_superviseSession
  supervises := by
    intro c w' i z p hc hpermitted hstep hnext
    obtain ⟨hlocks, hrest⟩ := Prog.Within.next hc.visit hnext
    refine ⟨⟨hstep.numbered hc.sound.orderly hc.inv.1, fun holder hholds ↦ ?_⟩, hrest,
      fun {t j m} ht ↦ ⟨(hc.thread ht).1, fun hcancelled ↦ ?_⟩⟩
    · cases holder with
      | supervisor => trivial
      | session j =>
        have hheld := hlocks.holdsLock hholds nofun
        obtain ⟨t, m, ht, hcancelled⟩ := hc.inv.2 _ hheld
        refine ⟨t, m, hstep.threads_uncancelled hc.sound.orderly ht hcancelled, ?_⟩
        -- A thread that holds a lock is not cancelled now.
        by_contra hnow
        rw [Bool.not_eq_false] at hnow
        exact (hpermitted t j m ht hcancelled hnow).1 hheld
    · -- a thread that is cancelled now takes no lock before its end
      by_cases hbefore : c.world.cancelled t = true
      · exact (hc.thread ht).2 hbefore
      · rw [Bool.not_eq_true] at hbefore
        exact (hpermitted t j m ht hbefore hcancelled).2
  creates := by
    intro c i m hc _ _ _ _
    refine ⟨(streams_runner m i).mono fun _ _ h ↦ h.toSparesLocks.locksAs, fun hcancelled ↦ ?_⟩
    exact absurd (hc.inv.1.cancelled _ hcancelled) (lt_irrefl _)
  runs := by
    intro c w' t i m z p hc _ halive ht hthread hnext
    obtain ⟨hwithin, hfree⟩ := hc.thread ht
    obtain ⟨hlocks, hrest⟩ := hwithin.next hnext
    have hcancelled := hthread.cancelled
    have hwaits : c.world.cancelled t = true → (c.pool t).waits = false :=
      fun hcancelled ↦ Bool.not_eq_true _ ▸ fun hwaits ↦ halive.2 ⟨hcancelled, hwaits⟩
    refine ⟨⟨hthread.numbered hc.sound.orderly hc.inv.1, fun holder hholds ↦ ?_⟩, hc.visit,
      ⟨hrest, fun hnow ↦ ?_⟩, fun ht' _ _ ↦ ?_⟩
    · by_cases hheld : c.world.HoldsLock holder
      · exact (hc.inv.2 holder hheld).of_eq hthread.threads hcancelled
      · -- The lock has been taken just now, by a thread that has not been cancelled.
        have hme : holder = .session i := by
          by_contra hme
          exact hheld (hlocks.holdsLock hholds hme)
        subst hme
        refine ⟨t, m, hthread.threads ▸ ht, ?_⟩
        rw [hcancelled]
        by_contra hnow
        rw [Bool.not_eq_false] at hnow
        exact hheld (((hfree hnow).next (hwaits hnow) hnext).1.holdsLock hholds)
    · rw [hcancelled] at hnow
      exact ((hfree hnow).next (hwaits hnow) hnext).2
    · exact ⟨(hc.thread ht').1, fun hnow ↦ (hc.thread ht').2 (hcancelled ▸ hnow)⟩
  delivers := by
    intro c t i m k p handler hc _ ht hpool hhandler
    obtain ⟨hwithin, hfree⟩ := hc.thread ht
    rw [hpool] at hwithin hfree
    exact ⟨(locksAs_packetHandler hhandler).bind fun _ ↦ hwithin,
      fun hcancelled ↦ (hfree hcancelled).delivers hhandler⟩
  ends := fun _ _ _ ↦ ⟨trivial, fun _ ↦ trivial⟩
  closes := by
    intro c hc
    exact ⟨⟨⟨hc.inv.1.thread, hc.inv.1.cancelled⟩,
      fun holder hholds ↦ (hc.inv.2 holder hholds).of_eq rfl rfl⟩, hc.visit, hc.thread⟩

theorem lockDiscipline_init : lockDiscipline.Kept Machine.init := by
  refine ⟨Machine.sound_init, ⟨⟨fun _ ↦ Nat.zero_lt_one, nofun⟩, fun holder hholds ↦ ?_⟩, trivial,
    nofun⟩
  rcases hholds with h | ⟨j, h⟩ <;> cases h

/-- **Cancelled threads keep no lock**, when every thread is cancelled while it holds none and takes
none before it has ended, wherever it ends. -/
theorem cancelled_thread_keeps_no_lock (as : List Action) (c : Machine)
    (hrun : Machine.init.run as = some c)
    (hcancels : ∀ as₁ a as₂ c₁ c₂, as = as₁ ++ a :: as₂ → Machine.init.run as₁ = some c₁ →
      c₁.step a = some c₂ → c₁.CancelsLockFree c₂.world) :
    (∀ holder, c.world.mergeMutex = some holder → c.world.Uncancelled holder) ∧
    ∀ j holder, (c.world.session j).pcapMutex = some holder → c.world.Uncancelled holder := by
  have hkept := lockDiscipline_lawful.run lockDiscipline_init hcancels hrun
  exact ⟨fun holder hholder ↦ hkept.inv.2 holder (.inl hholder),
    fun j holder hholder ↦ hkept.inv.2 holder (.inr ⟨j, hholder⟩)⟩

/-- A live capture is cancelled between two packets. It is given another one, polls the client and
ends there, while a file capture holds the lock around the client's dumper. -/
theorem cancelled_thread_keeps_no_lock_captured :
    ∃ as c, Machine.init.run as = some c ∧ c.world.cancelled 3 = true ∧
      (c.world.session 3).pcapMutex = some (.session 2) ∧ c.world.Uncancelled (.session 2) := by
  let packet : Packet := ⟨⟨0, 0, 0, 0⟩, fun _ ↦ 0⟩
  let granted : Query → ℤ := fun q ↦
    if q = .openServerSocket then 3 else if q = .pcapOpenLive then 5 else 0
  let as : List Action := [[.opens .server granted, .opens .livecapture granted,
    .opens (.filecapture 1) granted], silentVisit 0 11, [.runs 1 0, .runs 1 1, .runs 1 0,
    .runs 1 0, .runs 1 4, .runs 1 0], silentVisit 3 15, silentRuns 2 7, silentVisit 1 15,
    silentRuns 3 4, silentVisit 2 11, silentRuns 4 3, [.runs 4 1], silentRuns 4 2, [.runs 4 1,
    .runs 4 6], silentRuns 4 5, [.delivers 4 packet], silentRuns 4 13, [.closes], silentVisit 1 15,
    [.delivers 3 packet], silentRuns 3 8, [.ends 3, .supervises 0]].flatten
  have hruns : ((Machine.init.run as).map fun c ↦ (c.world.cancelled 3,
      (c.world.session 3).pcapMutex)) = some (true, some (.session 2)) := by
    decide +kernel
  have hsteps : ∀ n < as.length, ((Machine.init.run (as.take n)).bind fun c₁ ↦
      (Machine.init.run (as.take (n + 1))).map fun c₂ ↦ decide (∀ t < c₁.world.nextThread,
        c₁.world.cancelled t = false → c₂.world.cancelled t = true →
          c₁.CancelsHarmlessly t)) = some true := by
    decide +kernel
  obtain ⟨c, hrun, hresult⟩ := Option.map_eq_some_iff.mp hruns
  rw [Prod.mk.injEq] at hresult
  refine ⟨as, c, hrun, hresult.1, hresult.2, ?_⟩
  refine (cancelled_thread_keeps_no_lock as c hrun fun as₁ a as₂ c₁ c₂ has hrun₁ hstep ↦ ?_).2 _ _
    hresult.2
  refine Machine.cancelsLockFree_of_run hrun₁ ?_
  exact Machine.all_steps_of_take (p := fun c₁ c₂ ↦ ∀ t < c₁.world.nextThread,
    c₁.world.cancelled t = false → c₂.world.cancelled t = true → c₁.CancelsHarmlessly t) hsteps has
      hrun₁ hstep

/-- A client is aborted while its thread writes a packet: the thread is gone, and the merge lock and
the lock around the merger's dumper stay locked. -/
theorem cancelled_thread_keeps_locks :
    ∃ as c, Machine.init.run as = some c ∧ c.world.mergeMutex = some (.session 1) ∧
      (c.world.session 0).pcapMutex = some (.session 1) ∧ ¬ c.world.Uncancelled (.session 1) := by
  let packet : Packet := ⟨⟨0, 0, 0, 0⟩, fun _ ↦ 0⟩
  let as : List Action :=
    [[.opens (.merger false) fun _ ↦ 0, .opens (.client (some 0)) fun _ ↦ 0], silentVisit 0 12,
      silentRuns 1 3, [.runs 1 3], silentRuns 1 3, silentVisit 1 12, [.runs 2 0, .runs 2 5],
      silentRuns 2 8, [.delivers 2 packet], silentRuns 2 6, [.closes], silentVisit 1 15,
      [.ends 2, .supervises 0]].flatten
  have hruns : ((Machine.init.run as).map fun c ↦
    (c.world.mergeMutex, (c.world.session 0).pcapMutex,
      decide (∀ t < c.world.nextThread, (c.world.threads t).map Prod.fst ≠ some 1)))
      = some (some (.session 1), some (.session 1), true) := by
    decide +kernel
  obtain ⟨c, hrun, hresult⟩ := Option.map_eq_some_iff.mp hruns
  rw [Prod.mk.injEq, Prod.mk.injEq] at hresult
  obtain ⟨hmerge, hpcap, hthreads⟩ := hresult
  refine ⟨as, c, hrun, hmerge, hpcap, ?_⟩
  rintro ⟨t, m, ht, -⟩
  have hlt := (Machine.sound_of_run hrun).orderly.thread_lt ht
  refine of_decide_eq_true hthreads t hlt ?_
  rw [ht]
  rfl

end DistributorMerger
