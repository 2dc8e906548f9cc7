import DistributorMerger.Concurrency.Unstuck
import DistributorMerger.Session.Discipline
import DistributorMerger.Session.Listing
import DistributorMerger.Session.Locks

/-!
# Dumping

A packet handler calls `pcap_dump` between lock and unlock of the dumper's lock. The runner that
opens a dumper and the stopper that closes it do not take that lock: the merger's handler may find
no dumper at all, and any handler may be in the middle of a packet when the dumper is closed.

When a dumper is open whenever its lock is taken by the thread of a session, and is left alone as
long as the thread holds the lock, every `pcap_dump` is made on an open dumper.
-/

namespace DistributorMerger

/-! ## Locks and dumpers -/

/-- The session has a dumper, which is open. -/
def World.DumperOpen (w : World) (j : Slot) : Prop :=
  ∃ d, (w.session j).pcapDumper = some d ∧ d.id ∉ w.closedDumpers

/-- The thread of session `i` has locked the dumper of session `j`, which is open. -/
structure World.HoldsOpen (w : World) (i j : Slot) (d : PcapDumper) : Prop where
  /-- The lock. -/
  locked : (w.session j).pcapMutex = some (.session i)
  /-- The dumper. -/
  dumper : (w.session j).pcapDumper = some d
  /-- The dumper is open. -/
  notClosed : d.id ∉ w.closedDumpers

/-- A step by which the thread of a session locks a dumper finds it open, and a dumper that is open
and locked stays so until it is unlocked. -/
structure LocksOpen (w w' : World) : Prop where
  /-- A lock that is taken. -/
  taken : ∀ {i j}, (w.session j).pcapMutex ≠ some (.session i) →
    (w'.session j).pcapMutex = some (.session i) → w.DumperOpen j
  /-- A lock that is kept. -/
  kept : ∀ {i j d}, w.HoldsOpen i j d → (w'.session j).pcapMutex = some (.session i) →
    w'.HoldsOpen i j d

/-- A session in use keeps the lock of its dumper in the hands of those who are not `me`. -/
def SparesHolders (me : Agent) (w w' : World) : Prop :=
  ∀ j holder, holder ≠ me → (w.session j).state ≠ .unused →
    (w.session j).pcapMutex = some holder → (w'.session j).pcapMutex = some holder

/-- A slot that is not in use has no dumper. -/
def Vacant (w : World) : Prop :=
  ∀ j, (w.session j).state = .unused → (w.session j).pcapDumper = none

/-- The thread of session `i` keeps what it has locked. -/
def KeepsHeld (i : Slot) (w w' : World) : Prop := ∀ j d, w.HoldsOpen i j d → w'.HoldsOpen i j d

/-- A statement of the thread of session `i` takes no lock from another, and writes to open streams
only. -/
structure WritesOpen (i : Slot) (w w' : World) : Prop where
  /-- The locks of others. -/
  holders : SparesHolders (.session i) w w'
  /-- The streams. -/
  written : ∀ n, w'.written n ≠ w.written n → n ∉ w.closedDumpers

section Locks

variable {i j : Slot} {w w' : World} {me : Agent}

instance : Std.Refl (SparesHolders me) := ⟨fun _ _ _ _ _ h ↦ h⟩

instance : Std.Refl (WritesOpen i) :=
  ⟨fun w ↦ ⟨refl_of (SparesHolders _) w, fun _ h ↦ absurd rfl h⟩⟩

instance : Std.Refl (KeepsHeld i) := ⟨fun _ _ _ h ↦ h⟩

instance : IsTrans World (KeepsHeld i) := ⟨fun _ _ _ h h' j d hd ↦ h' j d (h j d hd)⟩

theorem SparesLocks.sparesHolders (h : SparesLocks w w') : SparesHolders me w w' := by
  intro j holder _ hused hheld
  rcases h.pcap j with hsame | ⟨hunused, -⟩
  · exact hsame.trans hheld
  · exact absurd hunused hused

theorem SparesStreams.writesOpen (h : SparesStreams w w') : WritesOpen i w w' :=
  ⟨h.sparesHolders, fun n hn ↦ absurd (congrFun h.written n) hn⟩

theorem writesOpen_of_eq (hsession : w'.session = w.session) (hwritten : w'.written = w.written) :
    WritesOpen i w w' := by
  refine ⟨fun j holder _ _ hheld ↦ ?_, fun n hn ↦ absurd (congrFun hwritten n) hn⟩
  rw [hsession]
  exact hheld

theorem LocksOpen.keepsHeld (h : LocksOpen w w') (hvacant : Vacant w)
    (hspares : SparesHolders me w w') (hme : .session i ≠ me) : KeepsHeld i w w' := by
  intro j d hd
  refine h.kept hd (hspares j _ hme (fun hunused ↦ ?_) hd.locked)
  have hnone := hvacant j hunused
  rw [hd.dumper] at hnone
  cases hnone

/-- A lock that is in the hands of `me` or of nobody may be taken or freed. -/
theorem sparesHolders_pcapMutex {holder : Option Agent}
    (h : (w.session i).pcapMutex = none ∨ (w.session i).pcapMutex = some me) :
    SparesHolders me w (w.modifySession i ({ · with pcapMutex := holder })) := by
  intro j other hother _ hheld
  by_cases hj : j = i
  · subst hj
    rcases h with h | h
    · rw [h] at hheld
      cases hheld
    · exact absurd (Option.some.inj (hheld.symm.trans h)) hother
  · rw [World.session_modifySession_of_ne _ hj]
    exact hheld

end Locks

/-! ## Slots that are not in use -/

section Vacant

variable {i : Slot} {w w' : World}

theorem Vacant.of_keeps (h : Vacant w) (hkeeps : KeepsDumpers w w')
    (hused : ∀ j, (w.session j).state ≠ .unused → (w'.session j).state ≠ .unused) : Vacant w' := by
  intro j hunused
  have hbefore : (w.session j).state = .unused := by
    by_contra hne
    exact hused j hne hunused
  rcases hkeeps.dumper j with hsame | hnone
  · exact hsame.trans (h j hbefore)
  · exact hnone

theorem SupervisorStep.vacant (h : SupervisorStep i w w') (hw : Vacant w) : Vacant w' := by
  intro j hunused
  by_cases hji : j = i
  · subst hji
    cases h with
    | tends h =>
      rw [unmoved_pcapDumper _ _ (h.session j)]
      rw [unmoved_state _ _ (h.session j)] at hunused
      exact hw j hunused
    | orders newState _ hnew =>
      rw [World.setState, World.session_modifySession_self] at hunused
      obtain rfl : newState = .unused := hunused
      rcases hnew with h | h | ⟨h | h, -⟩ <;> cases h
    | starts =>
      rw [World.setState, World.session_modifySession_self] at hunused
      cases hunused
    | decides m =>
      rw [World.setState, World.session_modifySession_self] at hunused
      have hstate : (w.session j).stateAfterStop m = .unused := hunused
      rcases (w.session j).stateAfterStop_cases m with h | h <;> rw [hstate] at h <;> cases h
    -- the slot is given back without a dumper
    | releases _ _ _ hdumper =>
      rw [World.setState, World.session_modifySession_self]
      exact hdumper
    | creates m =>
      rw [World.session_createThread_self] at hunused ⊢
      exact hw j hunused
    | clearsDumper => rw [World.session_modifySession_self]
    | counts | forgets | clearsHandle | clearsFd =>
      rw [World.session_modifySession_self] at hunused ⊢
      exact hw j hunused
    | _ => exact hw j hunused
  · rw [unmoved_pcapDumper _ _ (h.unmoved hji)]
    rw [unmoved_state _ _ (h.unmoved hji)] at hunused
    exact hw j hunused

theorem ThreadStep.vacant {m : Module} {t : ℕ} (h : ThreadStep i m w w')
    (ht : w.threads t = some (i, m)) (horderly : Orderly w) (hw : Vacant w) : Vacant w' := by
  have hused : ∀ j, (w.session j).state ≠ .unused → (w'.session j).state ≠ .unused := fun j hj ↦
    (h.beside (j := j) ht horderly.lifecycle).unused hj
  rcases h with h | h
  · rcases h.dumpers with ⟨w₁, fd, rfl, hsession, -⟩ | hkeeps
    · intro j hunused
      by_cases hji : j = i
      · subst hji
        exact absurd hunused (hused j (horderly.used_of_thread ht))
      · rw [World.openDumper, World.session_modifySession_of_ne _ hji] at hunused ⊢
        change (w₁.session j).pcapDumper = none
        rw [hsession]
        refine hw j ?_
        rw [← hsession]
        exact hunused
    · exact hw.of_keeps hkeeps hused
  · exact hw.of_keeps h.keepsDumpers hused

end Vacant

/-! ## The supervisor -/

/-- What others do while the supervisor holds the lock of a dumper. -/
def KeepsFlushed (w w' : World) : Prop :=
  ∀ j, (w.session j).state ≠ .unused → (w'.session j).state ≠ .unused ∧
    ((w.session j).pcapMutex = some .supervisor → (w'.session j).pcapMutex = some .supervisor)

section Supervisor

variable {i : Slot} {w w' : World} {α : Type}

instance : Std.Refl KeepsFlushed := ⟨fun _ _ hj ↦ ⟨hj, id⟩⟩

instance : IsTrans World KeepsFlushed := ⟨fun _ _ _ h h' j hj ↦
  ⟨(h' j (h j hj).1).1, (h' j (h j hj).1).2 ∘ (h j hj).2⟩⟩

theorem keepsFlushed_of_spares {me : Agent} (hspares : SparesHolders me w w')
    (hme : .supervisor ≠ me) (hbeside : ∀ j, Beside j w w') : KeepsFlushed w w' := fun j hj ↦
  ⟨(hbeside j).unused hj, hspares j _ hme hj⟩

theorem spares_of_locks {p : SessionProg α} (h : p.Within SparesLocks) :
    Prog.Triple KeepsFlushed (SparesHolders .supervisor) (fun _ ↦ True) p fun _ _ ↦ True :=
  .frame h (fun _ _ _ h ↦ h) (fun _ _ _ h ↦ h) fun _ _ h _ ↦ h.sparesHolders

theorem spares_flushIdleDumper :
    Prog.Triple KeepsFlushed (SparesHolders .supervisor) (fun w ↦ (w.session i).state ≠ .unused)
      (flushIdleDumper i) fun _ _ ↦ True := by
  let P : World → Prop := fun w ↦ (w.session i).state ≠ .unused
  have hP : Prog.Stable KeepsFlushed P := fun _ _ h hP ↦ (h i hP).1
  have hlocked : Prog.Stable KeepsFlushed fun w ↦ P w ∧
      (w.session i).pcapMutex = some .supervisor := fun _ _ h hw ↦
    ⟨(h i hw.1).1, (h i hw.1).2 hw.2⟩
  have hdone : Prog.Stable KeepsFlushed fun _ ↦ True := fun _ _ _ h ↦ h
  refine (Prog.Triple.read_any _ hP).bind fun monitor ↦ ?_
  cases monitor with
  | none => exact .pure hP fun _ _ ↦ trivial
  | some monitor =>
    refine (Prog.Triple.read_any _ hP).bind fun dumper ↦
      .ite (fun _ ↦ ?_) fun _ ↦ .pure hP fun _ _ ↦ trivial
    refine (Prog.Triple.read_any _ hP).bind fun bytes ↦
      .ite (fun _ ↦ ?_) fun _ ↦ .pure hP fun _ _ ↦ trivial
    refine Prog.Triple.bind (.await hP hlocked (fun w _ hfree ↦ ?_) fun w hw _ ↦ ?_) fun _ ↦
      .modify hlocked hdone (fun w hw ↦ ?_) fun _ _ ↦ trivial
    · exact sparesHolders_pcapMutex (.inl (Option.isNone_iff_eq_none.mp hfree))
    · dsimp only [P]
      rw [World.session_modifySession_self]
      exact ⟨hw, rfl⟩
    · exact sparesHolders_pcapMutex (.inr hw.2)

theorem spares_superviseSession :
    Prog.Triple KeepsFlushed (SparesHolders .supervisor) (fun _ ↦ True) (superviseSession i)
      fun _ _ ↦ True := by
  have hdone : Prog.Stable KeepsFlushed fun _ ↦ True := fun _ _ _ h ↦ h
  have hwrites : ∀ {α : Type} {p : SessionProg α}, p.Within (VisitWrites (fun _ ↦ True) i) →
      Prog.Triple KeepsFlushed (SparesHolders .supervisor) (fun _ ↦ True) p fun _ _ ↦ True :=
    fun h ↦ spares_of_locks ((puts_of_writes h).mono fun _ _ h ↦ h.toSparesLocks)
  refine (Prog.Triple.read_any _ hdone).bind fun state ↦
    .ite (fun _ ↦ .pure hdone fun _ _ ↦ trivial) fun _ ↦ ?_
  refine (hwrites (writes_orderAbort trivial)).bind fun _ ↦
    (hwrites (writes_checkDescriptor trivial)).bind fun _ ↦ Prog.Triple.bind ?_ fun _ ↦
      Prog.Triple.bind (M := fun (state : SessionState) (w : World) ↦
          state = .running → (w.session i).state ≠ .unused)
        (.read hdone (fun _ _ _ h hw hstate ↦ (h i (hw hstate)).1) ?_) fun state ↦ ?_
  · rw [pcapsessionTransitionSession_eq]
    refine (Prog.Triple.read_any _ hdone).bind fun state ↦ hwrites ?_
    exact writes_transitionFrom (fun _ _ ↦ trivial) fun _ ↦ trivial
  · intro w _ hstate hunused
    cases hstate.symm.trans hunused
  · have hrest : Prog.Triple KeepsFlushed (SparesHolders .supervisor) (fun _ ↦ True)
        (pure true : SessionProg Bool) fun _ _ ↦ True := .pure hdone fun _ _ ↦ trivial
    refine .ite (fun hstate ↦ Prog.Triple.pre ?_ fun _ hw ↦ hw hstate) fun _ ↦
      hrest.pre fun _ _ ↦ trivial
    exact spares_flushIdleDumper.bind fun _ ↦
      (spares_of_locks (streams_superviseMonitor.mono fun _ _ h ↦ h.toSparesLocks)).bind
      fun _ ↦ hrest

end Supervisor

/-! ## Packet handlers -/

/-- What a packet handler of session `i` is given, and what is asked of it. A lock is something to
wait for, and a packet is not. Nothing is supposed of a statement that writes to a stream. -/
def dumpContract (i : Slot) : Contract Query World where
  idle := fun w ↦ w.mergeMutex = none ∧ ∀ j, (w.session j).pcapMutex = none
  asks := fun q ↦ q ≠ .pcapLoop
  rely := KeepsHeld i
  condition := fun w w' ↦ w'.written = w.written → LocksOpen w w'
  guarantee := WritesOpen i

section Handlers

variable {i j : Slot} {α : Type}

instance : Std.Refl (dumpContract i).rely := inferInstanceAs (Std.Refl (KeepsHeld i))

instance : IsTrans World (dumpContract i).rely := inferInstanceAs (IsTrans World (KeepsHeld i))

instance : Std.Refl (dumpContract i).guarantee := inferInstanceAs (Std.Refl (WritesOpen i))

theorem stable_holdsOpen (d : PcapDumper) :
    Prog.Stable (dumpContract i).rely fun w ↦ w.HoldsOpen i j d := fun _ _ h hd ↦ h j d hd

/-- A passage that keeps the guarantee wherever it is executed. -/
theorem safe_of_within {p : SessionProg α} (h : p.Within (WritesOpen i))
    (hnimble : p.Nimble (dumpContract i)) :
    Prog.Safe (dumpContract i) (fun _ ↦ True) p fun _ _ ↦ True :=
  Prog.Triple.safe (.frame h Prog.stable_true (fun _ _ _ h ↦ h) fun _ _ h _ ↦ h) hnimble

theorem safe_of_streams {p : SessionProg α} (h : p.Within SparesStreams)
    (hnimble : p.Nimble (dumpContract i)) :
    Prog.Safe (dumpContract i) (fun _ ↦ True) p fun _ _ ↦ True :=
  safe_of_within (h.mono fun _ _ h ↦ h.writesOpen) hnimble

theorem safe_pure (a : α) :
    Prog.Safe (dumpContract i) (fun _ ↦ True) (pure a : SessionProg α) fun _ _ ↦ True :=
  safe_of_within (.pure a) (.pure a)

theorem safe_monitorIncrement (k : Slot) (packets bytes : ℤ) :
    Prog.Safe (dumpContract i) (fun _ ↦ True) (monitorIncrement k packets bytes) fun _ _ ↦ True :=
  safe_of_streams (streams_monitorIncrement k packets bytes) (.modify _)

theorem safe_fillBuffer (data : Memory) :
    Prog.Safe (dumpContract i) (fun _ ↦ True) (fillBuffer i data) fun _ _ ↦ True :=
  safe_of_within (.modify fun _ ↦ writesOpen_of_eq rfl rfl) (.modify _)

theorem safe_read {β : Type} (g : World → β) :
    Prog.Safe (dumpContract i) (fun _ ↦ True) (Prog.read g : SessionProg β) fun _ _ ↦ True :=
  safe_of_within (.read g) (.read g)

theorem safe_lockPcapMutex :
    Prog.Safe (dumpContract i) (fun _ ↦ True) (lockPcapMutex (.session i) j)
      fun _ w ↦ ∃ d, w.HoldsOpen i j d := by
  refine .await Prog.stable_true (fun w w' h ⟨d, hd⟩ ↦ ⟨d, h j d hd⟩) (fun w hidle ↦ ?_)
    (fun w _ hfree ↦ ?_) fun w _ hfree hlocks ↦ ?_
  · rw [hidle.2 j]
    rfl
  · refine ⟨sparesHolders_pcapMutex (.inl (Option.isNone_iff_eq_none.mp hfree)), fun n hn ↦ ?_⟩
    exact absurd rfl hn
  · obtain ⟨d, hd, hopen⟩ : w.DumperOpen j := by
      refine (hlocks rfl).taken (i := i) ?_ ?_
      · rw [Option.isNone_iff_eq_none.mp hfree]
        nofun
      · rw [World.session_modifySession_self]
    refine ⟨d, ?_, ?_, hopen⟩
    · rw [World.session_modifySession_self]
    · rw [World.session_modifySession_self]
      exact hd

theorem safe_unlockPcapMutex (d : PcapDumper) :
    Prog.Safe (dumpContract i) (fun w ↦ w.HoldsOpen i j d) (unlockPcapMutex j) fun _ _ ↦ True := by
  refine Prog.Triple.safe (.modify (stable_holdsOpen d) Prog.stable_true (fun w hd ↦ ?_)
    fun _ _ ↦ trivial) (.modify _)
  exact ⟨sparesHolders_pcapMutex (.inr hd.locked), fun n hn ↦ absurd rfl hn⟩

theorem safe_write (k : Slot) (d : PcapDumper) (chunk : World → Chunk) :
    Prog.Safe (dumpContract i) (fun w ↦ w.HoldsOpen i j d)
      (Prog.modify fun w ↦ w.write d k (chunk w) : SessionProg Unit)
      fun _ w ↦ w.HoldsOpen i j d := by
  refine Prog.Triple.safe (.modify (stable_holdsOpen d) (stable_holdsOpen d) (fun w hd ↦ ?_)
    fun w hd ↦ ⟨hd.locked, hd.dumper, hd.notClosed⟩) (.modify _)
  refine ⟨fun _ _ _ _ hheld ↦ hheld, fun n hn ↦ ?_⟩
  obtain rfl : n = d.id := by
    by_contra hne
    exact hn (Function.update_of_ne hne _ _)
  exact hd.notClosed

/-- **What is dumped under the lock goes to an open dumper.** -/
theorem safe_dumpLocked (k : Slot) (header : PcapPkthdr) (data : World → Memory)
    {rest : SessionProg Unit}
    (hrest : Prog.Safe (dumpContract i) (fun _ ↦ True) rest fun _ _ ↦ True) :
    Prog.Safe (dumpContract i) (fun _ ↦ True) (do
      lockPcapMutex (.session i) j
      let dumper ← readSession j (·.pcapDumper)
      pcapDump dumper k header data
      unlockPcapMutex j
      rest) fun _ _ ↦ True := by
  refine safe_lockPcapMutex.bind fun _ s ⟨d, hd⟩ ↦ ?_
  refine Prog.Safe.bind (P := fun w ↦ w.HoldsOpen i j d)
    (M := fun dumper w ↦ dumper = some d ∧ w.HoldsOpen i j d) (Prog.Triple.safe ?_ (.read _))
    (fun dumper s ⟨hdumper, hd⟩ ↦ ?_) s hd
  · refine .read (stable_holdsOpen d) (fun dumper w w' h hw ↦ ⟨hw.1, h j d hw.2⟩) fun w hd ↦ ?_
    exact ⟨hd.dumper, hd⟩
  · subst hdumper
    have hdump : Prog.Safe (dumpContract i) (fun w ↦ w.HoldsOpen i j d)
        (pcapDump (some d) k header data) fun _ w ↦ w.HoldsOpen i j d :=
      (safe_write k d _).bind fun _ ↦ safe_write k d _
    exact hdump.bind (fun _ ↦ (safe_unlockPcapMutex d).bind fun _ ↦ hrest) s hd

theorem safe_pcapsessionMergerPacketHandler (header : PcapPkthdr) :
    Prog.Safe (dumpContract i) (fun _ ↦ True) (pcapsessionMergerPacketHandler i header)
      fun _ _ ↦ True := by
  refine (safe_read _).bind fun merger ↦ ?_
  cases merger with
  | none => exact safe_pure ()
  | some merger =>
    refine Prog.Safe.bind (M := fun _ _ ↦ True) ?_ fun _ ↦ Prog.Safe.bind (M := fun _ _ ↦ True) ?_
      fun newHeader ↦ safe_dumpLocked i newHeader _ ?_
    · refine safe_of_within (.await fun _ _ ↦ writesOpen_of_eq rfl rfl) (.await fun w hidle ↦ ?_)
      rw [hidle.1]
      rfl
    · refine safe_of_streams (streams_untunnelledHeader merger header) ?_
      exact (Prog.Nimble.read _).bind fun _ ↦ .ite (.update _ _) (.pure header)
    · refine (safe_monitorIncrement i _ _).bind fun _ ↦
        (safe_monitorIncrement merger _ _).bind fun _ ↦ ?_
      exact safe_of_within (.modify fun _ ↦ writesOpen_of_eq rfl rfl) (.modify _)

theorem safe_pcapsessionClientconnClientHandlePacket (client : Slot) (header : PcapPkthdr) :
    Prog.Safe (dumpContract i) (fun _ ↦ True)
      (pcapsessionClientconnClientHandlePacket i client header) fun _ _ ↦ True := by
  refine (safe_read _).bind fun state ↦
    .ite (fun _ ↦ ?_) fun _ ↦ safe_pure ()
  refine (safe_read _).bind fun fd ↦ Prog.Safe.bind (M := fun _ _ ↦ True) ?_ fun found ↦
    .ite (fun _ ↦ ?_) fun _ ↦ ?_
  · refine safe_of_within (within_iotestsFdOpen _ _) ((Prog.Nimble.query ?_).bind fun _ ↦ .read _)
    rintro ⟨⟩
  · exact safe_dumpLocked client header _ (safe_monitorIncrement client _ _)
  · exact (safe_read _).bind fun id ↦ safe_of_within (.modify fun _ ↦ writesOpen_of_eq rfl rfl)
      (.modify _)

theorem safe_distributePacket (header : PcapPkthdr) (slots : List Slot) :
    Prog.Safe (dumpContract i) (fun _ ↦ True) (distributePacket i header slots) fun _ _ ↦ True := by
  induction slots with
  | nil => exact safe_pure ()
  | cons j slots ih =>
    refine (safe_read _).bind fun client ↦ ?_
    cases client with
    | none => exact ih
    | some client =>
      exact (safe_pcapsessionClientconnClientHandlePacket client header).bind fun _ ↦ ih

/-- **Packet handlers dump to open dumpers**, as long as they find them open when they lock them. -/
theorem safe_packetHandler {m : Module} {p : Packet} {handler : SessionProg Unit}
    (h : packetHandler i p m = some handler) :
    Prog.Safe (dumpContract i) (fun _ ↦ True) handler fun _ _ ↦ True := by
  have hcapture : Prog.Safe (dumpContract i) (fun _ ↦ True) (capturePacket i p) fun _ _ ↦ True :=
    (safe_fillBuffer _).bind fun _ ↦ (safe_monitorIncrement _ _ _).bind fun _ ↦
      safe_distributePacket _ _
  cases m with
  | client =>
    cases h
    exact (safe_fillBuffer _).bind fun _ ↦ safe_pcapsessionMergerPacketHandler _
  | livecapture =>
    cases h
    exact hcapture
  | filecapture =>
    cases h
    exact hcapture
  | clientconn => cases h
  | merger => cases h
  | server => cases h

end Handlers

/-! ## Threads -/

/-- What is left of the program of a thread: the rest of a packet handler, which keeps to the
contract, and the rest of the runner, which touches no lock and no stream. -/
def DumpsSafely (i : Slot) (p : SessionProg Unit) (w : World) : Prop :=
  ∃ x rest : SessionProg Unit, p = (x >>= fun _ ↦ rest) ∧
    x.SafeAt (dumpContract i) (fun _ _ ↦ True) w ∧ rest.Within SparesStreams

section Threads

variable {i : Slot} {m : Module} {w w' : World} {p p' : SessionProg Unit} {z : ℤ}

theorem dumpsSafely_of_streams (h : p.Within SparesStreams) : DumpsSafely i p w :=
  ⟨.ret (), p, rfl, ⟨fun _ _ ↦ trivial, trivial⟩, h⟩

theorem DumpsSafely.rely (h : DumpsSafely i p w) (hheld : KeepsHeld i w w') :
    DumpsSafely i p w' := by
  obtain ⟨x, rest, hp, hsafe, hrest⟩ := h
  exact ⟨x, rest, hp, hsafe.rely hheld, hrest⟩

/-- **One statement of a thread.** -/
theorem DumpsSafely.next (h : DumpsSafely i p w)
    (hlocks : w'.written = w.written → LocksOpen w w')
    (hnext : p.next z w = some (p', w')) : WritesOpen i w w' ∧ DumpsSafely i p' w' := by
  obtain ⟨x, rest, rfl, hsafe, hrest⟩ := h
  cases x with
  | ret a =>
    obtain ⟨hspares, hrest'⟩ := hrest.next hnext
    exact ⟨hspares.writesOpen, dumpsSafely_of_streams hrest'⟩
  | act f k =>
    obtain ⟨w₁, hf, heq⟩ := Option.map_eq_some_iff.mp hnext
    cases heq
    obtain ⟨hopen, hsafe'⟩ := hsafe.step (refl_of (KeepsHeld i) w) hlocks (.act hf)
    refine ⟨?_, k w, rest, rfl, hsafe', hrest⟩
    rcases hopen with hopen | rfl
    · exact hopen
    · exact refl_of (WritesOpen i) _
  | ask q k =>
    cases hnext
    obtain ⟨-, hsafe'⟩ := hsafe.step (refl_of (KeepsHeld i) w) hlocks (.ask z)
    exact ⟨refl_of (WritesOpen i) w, k z, rest, rfl, hsafe', hrest⟩

/-- A thread that waits for a packet has come to the end of its handler. -/
theorem DumpsSafely.delivers {k : ℤ → SessionProg Unit} {packet : Packet}
    {handler : SessionProg Unit} (h : DumpsSafely i (.ask .pcapLoop k) w)
    (hhandler : packetHandler i packet m = some handler) :
    DumpsSafely i (handler >>= fun _ ↦ .ask .pcapLoop k) w := by
  obtain ⟨x, rest, hp, hsafe, hrest⟩ := h
  cases x with
  | ret a =>
    obtain rfl : .ask .pcapLoop k = rest := hp
    exact ⟨handler, _, rfl, safe_packetHandler hhandler w trivial, hrest⟩
  | act f k' => cases hp
  | ask q k' =>
    cases hp
    exact absurd rfl (hsafe.unstuck.1 w (refl_of (KeepsHeld i) w))

end Threads

/-! ## The discipline -/

/-- Dumpers are used while they are open. -/
def dumpDiscipline : Discipline where
  inv := Vacant
  visit := fun p w ↦ p.Sat KeepsFlushed (SparesHolders .supervisor) (fun _ _ ↦ True) w
  thread := fun _ i _ p w ↦ DumpsSafely i p w

theorem dumpDiscipline_lawful :
    dumpDiscipline.Lawful fun c w' ↦ LocksOpen c.world w' where
  opens := by
    intro c w' hc hlocks heffect
    have hspares : ∀ me, SparesHolders me c.world w' := fun _ ↦ heffect.sparesLocks.sparesHolders
    refine ⟨?_, ?_, fun {t i m} ht ↦ ?_⟩
    · exact Vacant.of_keeps hc.inv heffect.keepsDumpers fun j hj ↦
        (heffect.beside (i := j)).unused hj
    · exact hc.visit.rely (keepsFlushed_of_spares (hspares (.session 0)) nofun fun _ ↦
        heffect.beside)
    · exact (hc.thread ht).rely (hlocks.keepsHeld hc.inv (hspares .supervisor) nofun)
  visits := fun _ _ _ ↦ spares_superviseSession _ trivial
  supervises := by
    intro c w' i z p hc hlocks hstep hnext
    obtain ⟨hspares, hvisit⟩ := hc.visit.step (Prog.step_of_next hnext)
    have hspares : SparesHolders .supervisor c.world w' := by
      rcases hspares with hspares | rfl
      · exact hspares
      · exact refl_of (SparesHolders _) _
    refine ⟨hstep.vacant hc.inv, hvisit, fun {t j m} ht ↦ ?_⟩
    exact (hc.thread ht).rely (hlocks.keepsHeld hc.inv hspares nofun)
  creates := fun _ _ _ _ _ ↦ dumpsSafely_of_streams (streams_runner _ _)
  runs := by
    intro c w' t i m z p hc hlocks halive ht hthread hnext
    obtain ⟨hopen, hown⟩ := (hc.thread ht).next (fun _ ↦ hlocks) hnext
    refine ⟨hthread.vacant ht hc.sound.orderly hc.inv, ?_, hown, fun {t' j m'} ht' _ hji ↦ ?_⟩
    · exact hc.visit.rely (keepsFlushed_of_spares hopen.holders nofun fun _ ↦
        hthread.beside ht hc.sound.orderly.lifecycle)
    · refine (hc.thread ht').rely (hlocks.keepsHeld hc.inv hopen.holders ?_)
      rintro ⟨⟩
      exact hji rfl
  delivers := by
    intro c t i m k p handler hc _ ht hpool hhandler
    have hwait := hc.thread ht
    rw [hpool] at hwait
    exact hwait.delivers hhandler
  ends := fun _ _ _ ↦ dumpsSafely_of_streams trivial
  closes := by
    intro c hc
    refine ⟨hc.inv, hc.visit.rely fun j hj ↦ ⟨hj, id⟩, fun ht ↦ (hc.thread ht).rely ?_⟩
    exact fun _ _ hd ↦ ⟨hd.locked, hd.dumper, hd.notClosed⟩

theorem dumpDiscipline_init : dumpDiscipline.Kept Machine.init :=
  ⟨Machine.sound_init, fun _ _ ↦ rfl, fun _ _ ↦ trivial, nofun⟩

/-! ## Dumping to open dumpers -/

/-- What thread `t` is about to dump goes to an open dumper. -/
structure Machine.DumpsOpen (c : Machine) (t : ℕ) : Prop where
  /-- `pcap_dump` is not called, between lock and unlock, without a dumper. -/
  called : ∀ k header data j rest,
    c.pool t ≠ (pcapDump none k header data >>= fun _ ↦ unlockPcapMutex j >>= rest)
  /-- A stream that is written to is open. -/
  written : ∀ z p w', (c.pool t).next z c.world = some (p, w') →
    ∀ n, w'.written n ≠ c.world.written n → n ∉ c.world.closedDumpers

section Open

variable {i j : Slot} {w w' : World} {p p' : SessionProg Unit} {z : ℤ}

theorem DumpsSafely.written (h : DumpsSafely i p w) (hnext : p.next z w = some (p', w')) {n : ℕ}
    (hn : w'.written n ≠ w.written n) : n ∉ w.closedDumpers := by
  refine (h.next (fun hsame ↦ absurd (congrFun hsame n) hn) hnext).1.written n hn

theorem not_sparesStreams_unlock {rest : Unit → SessionProg Unit} :
    ¬ (unlockPcapMutex j >>= rest).Within SparesStreams := by
  intro h
  let w : World := World.init.modifySession j
    ({ · with state := .running, pcapMutex := some .supervisor })
  have hspares := (h.1 w _ rfl).pcap j
  dsimp only [w] at hspares
  rw [World.modifySession_modifySession, World.session_modifySession_self,
    World.session_modifySession_self] at hspares
  rcases hspares with h | ⟨h, -⟩ <;> cases h

/-- A handler that keeps to the contract does not come to a call without a dumper, and a runner
contains none. -/
theorem DumpsSafely.called (h : DumpsSafely i p w) (k : Slot) (header : PcapPkthdr)
    (data : World → Memory) (rest : Unit → SessionProg Unit) :
    p ≠ (pcapDump none k header data >>= fun _ ↦ unlockPcapMutex j >>= rest) := by
  rintro rfl
  obtain ⟨x, rest', hp, hsafe, hrest⟩ := h
  cases x with
  | ret a =>
    obtain rfl : _ = rest' := hp
    exact not_sparesStreams_unlock (hrest.2 w)
  | act f k' =>
    have hact : Prog.act (fun _ ↦ none) (fun _ ↦ unlockPcapMutex j >>= rest)
        = Prog.act f fun s ↦ k' s >>= fun _ ↦ rest' := hp
    obtain ⟨rfl, -⟩ := Prog.act.inj hact
    have henabled := (hsafe.unstuck w (refl_of (KeepsHeld i) w)).1 World.init
    exact absurd (henabled ⟨rfl, fun _ ↦ rfl⟩) nofun
  | ask q k' => cases hp

end Open

theorem Machine.dumpsOpen_of_run {as : List Action} {c : Machine}
    (hrun : Machine.init.run as = some c)
    (hlocks : ∀ as₁ a as₂ c₁ c₂, as = as₁ ++ a :: as₂ → Machine.init.run as₁ = some c₁ →
      c₁.step a = some c₂ → LocksOpen c₁.world c₂.world) {t : ℕ} {i : Slot} {m : Module}
    (ht : c.world.threads t = some (i, m)) : c.DumpsOpen t := by
  have hsafe : DumpsSafely i (c.pool t) c.world :=
    (dumpDiscipline_lawful.run dumpDiscipline_init hlocks hrun).thread ht
  exact ⟨fun k header data j rest ↦ hsafe.called k header data rest,
    fun z p w' hnext n hn ↦ hsafe.written hnext hn⟩

instance (w : World) (j : Slot) : Decidable (w.DumperOpen j) :=
  decidable_of_iff ((w.session j).pcapDumper.any fun d ↦ decide (d.id ∉ w.closedDumpers)) <| by
    simp only [World.DumperOpen, Option.any_eq_true, decide_eq_true_iff]

/-- A step that locks open dumpers only, closes no stream and leaves the dumpers that are locked
alone. -/
def LeavesLocked (w w' : World) : Prop :=
  w'.closedDumpers = w.closedDumpers ∧
  ∀ j, ((w'.session j).pcapMutex = (w.session j).pcapMutex ∨ w.DumperOpen j) ∧
    ((w.session j).pcapMutex = none ∨ (w'.session j).pcapDumper = (w.session j).pcapDumper)

instance (w w' : World) : Decidable (LeavesLocked w w') := by
  unfold LeavesLocked
  infer_instance

theorem LeavesLocked.locksOpen {w w' : World} (h : LeavesLocked w w') : LocksOpen w w' := by
  obtain ⟨hclosed, hlocks⟩ := h
  refine ⟨fun {i j} hbefore hafter ↦ ?_, fun {i j d} hd hafter ↦ ⟨hafter, ?_, ?_⟩⟩
  · refine (hlocks j).1.resolve_left fun hsame ↦ hbefore ?_
    exact hsame.symm.trans hafter
  · rcases (hlocks j).2 with hfree | hsame
    · rw [hd.locked] at hfree
      cases hfree
    · exact hsame.trans hd.dumper
  · rw [hclosed]
    exact hd.notClosed

/-- What the next statement of thread `t` does to stream 0 at the end of a run: the session of the
thread, the chunks in the stream before and after, and whether the stream has been closed. -/
def Machine.nextWrite (as : List Action) (t : ℕ) :
    Option (Option (Slot × Module) × ℕ × ℕ × Bool) :=
  (Machine.init.run as).bind fun c ↦ ((c.pool t).next 0 c.world).map fun x ↦
    (c.world.threads t, (c.world.written 0).length, (x.2.written 0).length,
      decide (0 ∈ c.world.closedDumpers))

theorem Machine.exists_of_nextWrite {as : List Action} {t : ℕ} {x : Slot × Module} {closed : Bool}
    (h : Machine.nextWrite as t = some (some x, 0, 1, closed)) :
    ∃ c p w', Machine.init.run as = some c ∧ c.world.threads t = some x ∧
      (c.pool t).next 0 c.world = some (p, w') ∧ w'.written 0 ≠ c.world.written 0 ∧
      decide (0 ∈ c.world.closedDumpers) = closed := by
  obtain ⟨c, hrun, hnext⟩ := Option.bind_eq_some_iff.mp h
  obtain ⟨⟨p, w'⟩, hnext, hresult⟩ := Option.map_eq_some_iff.mp hnext
  rw [Prod.mk.injEq, Prod.mk.injEq, Prod.mk.injEq] at hresult
  obtain ⟨hthread, hbefore, hafter, hclosed⟩ := hresult
  refine ⟨c, p, w', hrun, hthread, hnext, fun hsame ↦ ?_, hclosed⟩
  rw [hsame, hbefore] at hafter
  cases hafter

/-- **The merger dumps to an open dumper**, in every interleaving of runners, stoppers and any
number of clients, when the dumper is open whenever it is locked, and is left alone until it is
unlocked. -/
theorem merger_dumps_open (as : List Action) (c : Machine) (hrun : Machine.init.run as = some c)
    (hlocks : ∀ as₁ a as₂ c₁ c₂, as = as₁ ++ a :: as₂ → Machine.init.run as₁ = some c₁ →
      c₁.step a = some c₂ → LocksOpen c₁.world c₂.world) (t : ℕ) (i : Slot)
    (ht : c.world.threads t = some (i, .client)) : c.DumpsOpen t :=
  Machine.dumpsOpen_of_run hrun hlocks ht

/-- A client writes a packet through a merger that is running. -/
theorem merger_dumps_open_client :
    ∃ as c p w', Machine.init.run as = some c ∧ c.world.threads 2 = some (1, .client) ∧
      (c.pool 2).next 0 c.world = some (p, w') ∧ w'.written 0 ≠ c.world.written 0 ∧
      0 ∉ c.world.closedDumpers := by
  let packet : Packet := ⟨⟨0, 0, 0, 0⟩, fun _ ↦ 0⟩
  let as : List Action :=
    [[.opens (.merger false) fun _ ↦ 0, .opens (.client (some 0)) fun _ ↦ 0], silentVisit 0 12,
      silentRuns 1 3, [.runs 1 3], silentRuns 1 3, silentVisit 1 12, [.runs 2 0, .runs 2 5],
      silentRuns 2 8, [.delivers 2 packet], silentRuns 2 6].flatten
  have hwrite : Machine.nextWrite as 2 = some (some (1, .client), 0, 1, false) := by
    decide +kernel
  have hsteps : ∀ n < as.length, ((Machine.init.run (as.take n)).bind fun c₁ ↦
      (Machine.init.run (as.take (n + 1))).map fun c₂ ↦
        decide (LeavesLocked c₁.world c₂.world)) = some true := by
    decide +kernel
  obtain ⟨c, p, w', hrun, hthread, hnext, hwritten, -⟩ := Machine.exists_of_nextWrite hwrite
  have hopen := merger_dumps_open as c hrun (fun as₁ a as₂ c₁ c₂ has hrun₁ hstep ↦
    (Machine.all_steps_of_take (p := fun c₁ c₂ ↦ LeavesLocked c₁.world c₂.world) hsteps has
      hrun₁ hstep).locksOpen) 2 1 hthread
  exact ⟨as, c, p, w', hrun, hthread, hnext, hwritten, hopen.written 0 p w' hnext 0 hwritten⟩

/-- Session handling is closed while a client is between lock and `pcap_dump`: the merger is
stopped, and the client writes to a dumper that has been closed. -/
theorem merger_dumps_closed :
    ∃ as c, Machine.init.run as = some c ∧ c.world.threads 2 = some (1, .client) ∧
      ¬ c.DumpsOpen 2 := by
  let packet : Packet := ⟨⟨0, 0, 0, 0⟩, fun _ ↦ 0⟩
  let as : List Action :=
    [[.opens (.merger false) fun _ ↦ 0, .opens (.client (some 0)) fun _ ↦ 0], silentVisit 0 12,
      silentRuns 1 3, [.runs 1 3], silentRuns 1 3, silentVisit 1 12, [.runs 2 0, .runs 2 5],
      silentRuns 2 8, [.delivers 2 packet], silentRuns 2 6, [.closes], silentVisit 0 25].flatten
  have hwrite : Machine.nextWrite as 2 = some (some (1, .client), 0, 1, true) := by
    decide +kernel
  obtain ⟨c, p, w', hrun, hthread, hnext, hwritten, hclosed⟩ := Machine.exists_of_nextWrite hwrite
  refine ⟨as, c, hrun, hthread, fun hopen ↦ ?_⟩
  exact hopen.written 0 p w' hnext 0 hwritten (of_decide_eq_true hclosed)

/-- **Distribution dumps to an open dumper**, under the same condition. -/
theorem distribution_dumps_open (as : List Action) (c : Machine)
    (hrun : Machine.init.run as = some c)
    (hlocks : ∀ as₁ a as₂ c₁ c₂, as = as₁ ++ a :: as₂ → Machine.init.run as₁ = some c₁ →
      c₁.step a = some c₂ → LocksOpen c₁.world c₂.world) (t : ℕ) (i : Slot)
    (ht : c.world.threads t = some (i, .livecapture) ∨ c.world.threads t = some (i, .filecapture)) :
    c.DumpsOpen t := by
  rcases ht with ht | ht
  · exact Machine.dumpsOpen_of_run hrun hlocks ht
  · exact Machine.dumpsOpen_of_run hrun hlocks ht

/-- A server accepts a client, and the capture writes a packet to it. -/
theorem distribution_dumps_open_captured :
    ∃ as c p w', Machine.init.run as = some c ∧ c.world.threads 3 = some (1, .livecapture) ∧
      (c.pool 3).next 0 c.world = some (p, w') ∧ w'.written 0 ≠ c.world.written 0 ∧
      0 ∉ c.world.closedDumpers := by
  let packet : Packet := ⟨⟨0, 0, 0, 0⟩, fun _ ↦ 0⟩
  let granted : Query → ℤ := fun q ↦
    if q = .openServerSocket then 3 else if q = .pcapOpenLive then 5 else 0
  let as : List Action := [[.opens .server granted, .opens .livecapture granted],
    silentVisit 0 11, [.runs 1 0, .runs 1 1, .runs 1 0, .runs 1 0, .runs 1 4, .runs 1 0],
    silentVisit 2 15, silentRuns 2 7, silentVisit 1 15, silentRuns 3 4, [.delivers 3 packet],
    silentRuns 3 11].flatten
  have hwrite : Machine.nextWrite as 3 = some (some (1, .livecapture), 0, 1, false) := by
    decide +kernel
  have hsteps : ∀ n < as.length, ((Machine.init.run (as.take n)).bind fun c₁ ↦
      (Machine.init.run (as.take (n + 1))).map fun c₂ ↦
        decide (LeavesLocked c₁.world c₂.world)) = some true := by
    decide +kernel
  obtain ⟨c, p, w', hrun, hthread, hnext, hwritten, -⟩ := Machine.exists_of_nextWrite hwrite
  have hopen := distribution_dumps_open as c hrun (fun as₁ a as₂ c₁ c₂ has hrun₁ hstep ↦
    (Machine.all_steps_of_take (p := fun c₁ c₂ ↦ LeavesLocked c₁.world c₂.world) hsteps has
      hrun₁ hstep).locksOpen) 3 1 (.inl hthread)
  exact ⟨as, c, p, w', hrun, hthread, hnext, hwritten, hopen.written 0 p w' hnext 0 hwritten⟩

/-- Session handling is closed while the capture is between lock and `pcap_dump`: the client
connection is taken off the list and its dumper is closed, and the capture writes to it. -/
theorem distribution_dumps_closed :
    ∃ as c, Machine.init.run as = some c ∧ c.world.threads 3 = some (1, .livecapture) ∧
      ¬ c.DumpsOpen 3 := by
  let packet : Packet := ⟨⟨0, 0, 0, 0⟩, fun _ ↦ 0⟩
  let granted : Query → ℤ := fun q ↦
    if q = .openServerSocket then 3 else if q = .pcapOpenLive then 5 else 0
  let as : List Action := [[.opens .server granted, .opens .livecapture granted],
    silentVisit 0 11, [.runs 1 0, .runs 1 1, .runs 1 0, .runs 1 0, .runs 1 4, .runs 1 0],
    silentVisit 2 15, silentRuns 2 7, silentVisit 1 15, silentRuns 3 4, [.delivers 3 packet],
    silentRuns 3 11, [.closes], silentVisit 2 25].flatten
  have hwrite : Machine.nextWrite as 3 = some (some (1, .livecapture), 0, 1, true) := by
    decide +kernel
  obtain ⟨c, p, w', hrun, hthread, hnext, hwritten, hclosed⟩ := Machine.exists_of_nextWrite hwrite
  refine ⟨as, c, hrun, hthread, fun hopen ↦ ?_⟩
  exact hopen.written 0 p w' hnext 0 hwritten (of_decide_eq_true hclosed)

end DistributorMerger
