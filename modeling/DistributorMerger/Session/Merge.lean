import DistributorMerger.Concurrency.Triple
import DistributorMerger.Concurrency.Interleaving
import DistributorMerger.Session.PacketHandlers

/-!
# Merging is an interleaving

Any number of client sessions hand their packets to one merger, each in its own thread, while the
supervisor flushes dumpers and reports monitors. The threads are interleaved statement by statement:
the merge lock, the rewriting of the packet in its buffer, the two writes of `pcap_dump` and the
counters are separate steps.

The argument is by rely and guarantee. A session that holds the merge lock relies on nobody writing
to the merged stream; one that does not relies on nobody writing in its name, and on nobody touching
its buffer. What all of them preserve is that the stream consists of whole records, followed at most
by the header that the holder of the lock has written last.
-/

namespace DistributorMerger

/-! ## Streams written for several sessions -/

/-- The stream of a list of complete records, each written for a session. -/
def taggedChunks (l : List (Slot × Record)) : List (Slot × Chunk) :=
  l.flatMap fun r ↦ [(r.1, .header r.2.header), (r.1, .bytes r.2.bytes)]

@[simp] theorem taggedChunks_nil : taggedChunks [] = [] := rfl

theorem taggedChunks_concat (l : List (Slot × Record)) (i : Slot) (r : Record) :
    taggedChunks (l ++ [(i, r)])
      = taggedChunks l ++ [(i, .header r.header)] ++ [(i, .bytes r.bytes)] := by
  rw [taggedChunks, List.flatMap_append, ← taggedChunks, List.append_assoc]
  rfl

theorem ofTag_taggedChunks (i : Slot) (l : List (Slot × Record)) :
    ofTag i (taggedChunks l) = chunksOf (ofTag i l) := by
  induction l using List.reverseRecOn with
  | nil => rfl
  | append_singleton l r ih =>
    obtain ⟨j, r⟩ := r
    rw [taggedChunks_concat, ofTag_append, ofTag_append, ofTag_append, ih]
    by_cases hji : j = i
    · subst hji
      rw [ofTag_singleton_self, ofTag_singleton_self, ofTag_singleton_self, chunksOf_concat,
        List.append_assoc]
      rfl
    · rw [ofTag_singleton_of_ne hji, ofTag_singleton_of_ne hji, ofTag_singleton_of_ne hji,
        List.append_nil, List.append_nil, List.append_nil]

/-! ## The programs -/

/-- The record that the merger writes for a packet. -/
def mergedRecord (untunnel : Bool) (p : Packet) : Record :=
  if untunnel then untunnelRecord p else p.record

/-- What the supervisor does to the running sessions it visits. -/
def tendSessions : List Slot → SessionProg Unit
  | [] => pure ()
  | i :: slots => do
    flushIdleDumper i
    superviseMonitor i
    tendSessions slots

/-- The supervisor tends `visits`, and each session merges the packets of its connection. -/
def mergePool (packets : Slot → List Packet) (visits : List Slot) : Agent → SessionProg Unit
  | .supervisor => tendSessions visits
  | .session i => mergerPcapLoop i (packets i)

/-- What stays the same while packets are merged. -/
structure Merging where
  /-- The merger. -/
  merger : Slot
  /-- Its dumper. -/
  dumper : PcapDumper
  /-- Its untunnel flag. -/
  untunnel : Bool
  /-- The merged stream so far. -/
  base : List (Slot × Chunk)
  /-- The packets of each connection. -/
  packets : Slot → List Packet

namespace Merging

variable (M : Merging) {i : Slot} {w w' : World}

/-- The records of some packets. -/
def records (l : List Packet) : List Record := l.map (mergedRecord M.untunnel)

/-- The merged stream. -/
def stream (w : World) : List (Slot × Chunk) := w.written M.dumper.id

/-- The stream has grown by whole records and `pending`, in the order of each connection. -/
structure Grown (l : List (Slot × Record)) (pending : List (Slot × Chunk)) (w : World) : Prop where
  /-- The records and what is pending follow what was there before. -/
  stream_eq : M.stream w = M.base ++ taggedChunks l ++ pending
  /-- The records of a connection are those of its first packets. -/
  isPrefix : ∀ j, ofTag j l <+: M.records (M.packets j)

/-- What is pending is at most the header of the next record of the session that holds the merge
lock. -/
def Pending (l : List (Slot × Record)) (pending : List (Slot × Chunk)) (w : World) : Prop :=
  pending = [] ∨ ∃ i r, pending = [(i, .header r.header)] ∧ w.mergeMutex = some (.session i) ∧
    ofTag i l ++ [r] <+: M.records (M.packets i)

/-- What all threads preserve. -/
structure Invariant (w : World) : Prop where
  /-- The dumper stays open. -/
  dumper : (w.session M.merger).pcapDumper = some M.dumper
  /-- The flag stays as it is. -/
  untunnel : (w.session M.merger).untunnel = M.untunnel
  /-- Packets arrive for the merger only. -/
  handler : ∀ i, M.packets i ≠ [] → (w.session i).handler = some M.merger
  /-- The stream is in order. -/
  grown : ∃ l pending, M.Grown l pending w ∧ M.Pending l pending w

/-- A step does not touch what session `i` relies on. -/
structure Untouched (i : Slot) (w w' : World) : Prop where
  /-- Its buffer. -/
  buffer : w'.buffer i = w.buffer i
  /-- Whether it holds the merge lock. -/
  mergeMutex : w'.mergeMutex = some (.session i) ↔ w.mergeMutex = some (.session i)
  /-- The stream, while it holds the lock. -/
  stream : w.mergeMutex = some (.session i) → M.stream w' = M.stream w
  /-- What has been written in its name. -/
  own : ofTag i (M.stream w') = ofTag i (M.stream w)

/-- What an agent relies on. -/
def Rely (a : Agent) (w w' : World) : Prop :=
  (M.Invariant w → M.Invariant w') ∧ ∀ i, a = .session i → M.Untouched i w w'

/-- What an agent guarantees. -/
def Guarantee (a : Agent) (w w' : World) : Prop :=
  (M.Invariant w → M.Invariant w') ∧ ∀ i, a ≠ .session i → M.Untouched i w w'

variable {M}

theorem Untouched.refl (i : Slot) (w : World) : M.Untouched i w w :=
  ⟨rfl, Iff.rfl, fun _ ↦ rfl, rfl⟩

theorem Untouched.trans {w₁ w₂ w₃ : World} (h₁ : M.Untouched i w₁ w₂) (h₂ : M.Untouched i w₂ w₃) :
    M.Untouched i w₁ w₃ where
  buffer := h₂.buffer.trans h₁.buffer
  mergeMutex := h₂.mergeMutex.trans h₁.mergeMutex
  stream := fun h ↦ (h₂.stream (h₁.mergeMutex.mpr h)).trans (h₁.stream h)
  own := h₂.own.trans h₁.own

instance (a : Agent) : Std.Refl (M.Rely a) := ⟨fun w ↦ ⟨id, fun i _ ↦ .refl i w⟩⟩

instance (a : Agent) : IsTrans World (M.Rely a) :=
  ⟨fun _ _ _ h₁ h₂ ↦ ⟨h₂.1 ∘ h₁.1, fun i hi ↦ (h₁.2 i hi).trans (h₂.2 i hi)⟩⟩

instance (a : Agent) : Std.Refl (M.Guarantee a) := ⟨fun w ↦ ⟨id, fun i _ ↦ .refl i w⟩⟩

theorem Guarantee.rely {a b : Agent} (hab : a ≠ b) (h : M.Guarantee a w w') : M.Rely b w w' :=
  ⟨h.1, fun i hi ↦ h.2 i (hi ▸ hab)⟩

/-! ## Steps that keep the stream as it is -/

/-- A step changes neither the stream nor the buffers nor the merge lock, and leaves of each session
its dumper, its flag and its handler. -/
structure Bookkeeping (w w' : World) : Prop where
  /-- The streams. -/
  written : w'.written = w.written
  /-- The buffers. -/
  buffer : w'.buffer = w.buffer
  /-- The lock. -/
  mergeMutex : w'.mergeMutex = w.mergeMutex
  /-- The sessions. -/
  session : ∀ j, (w'.session j).pcapDumper = (w.session j).pcapDumper ∧
    (w'.session j).untunnel = (w.session j).untunnel ∧
    (w'.session j).handler = (w.session j).handler

instance : Std.Refl Bookkeeping := ⟨fun _ ↦ ⟨rfl, rfl, rfl, fun _ ↦ ⟨rfl, rfl, rfl⟩⟩⟩

theorem Invariant.of_session (hinv : M.Invariant w)
    (hsession : ∀ j, (w'.session j).pcapDumper = (w.session j).pcapDumper ∧
      (w'.session j).untunnel = (w.session j).untunnel ∧
      (w'.session j).handler = (w.session j).handler)
    (hgrown : ∃ l pending, M.Grown l pending w' ∧ M.Pending l pending w') : M.Invariant w' where
  dumper := (hsession _).1.trans hinv.dumper
  untunnel := (hsession _).2.1.trans hinv.untunnel
  handler := fun i hi ↦ (hsession i).2.2.trans (hinv.handler i hi)
  grown := hgrown

theorem Grown.congr {l : List (Slot × Record)} {pending : List (Slot × Chunk)}
    (h : M.Grown l pending w) (hw : M.stream w' = M.stream w) : M.Grown l pending w' :=
  ⟨hw.trans h.stream_eq, h.isPrefix⟩

theorem Pending.congr {l : List (Slot × Record)} {pending : List (Slot × Chunk)}
    (h : M.Pending l pending w) (hw : w'.mergeMutex = w.mergeMutex) : M.Pending l pending w' := by
  rw [Pending, hw]
  exact h

theorem Invariant.congr (hinv : M.Invariant w) (hsession : w'.session = w.session)
    (hstream : M.stream w' = M.stream w) (hmutex : w'.mergeMutex = w.mergeMutex) :
    M.Invariant w' := by
  obtain ⟨l, pending, hgrown, hpending⟩ := hinv.grown
  exact hinv.of_session (fun _ ↦ by rw [hsession]; exact ⟨rfl, rfl, rfl⟩)
    ⟨l, pending, hgrown.congr hstream, hpending.congr hmutex⟩

theorem Bookkeeping.stream (h : Bookkeeping w w') : M.stream w' = M.stream w :=
  congrFun h.written _

theorem Bookkeeping.guarantee (h : Bookkeeping w w') (a : Agent) : M.Guarantee a w w' := by
  refine ⟨fun hinv ↦ ?_, fun i _ ↦ ?_⟩
  · obtain ⟨l, pending, hgrown, hpending⟩ := hinv.grown
    exact hinv.of_session h.session
      ⟨l, pending, hgrown.congr h.stream, hpending.congr h.mergeMutex⟩
  · exact ⟨congrFun h.buffer i, by rw [h.mergeMutex], fun _ ↦ h.stream, by rw [h.stream]⟩

theorem bookkeeping_modifySession (w : World) (j : Slot) {f : Session → Session}
    (hf : ∀ s, (f s).pcapDumper = s.pcapDumper ∧ (f s).untunnel = s.untunnel ∧
      (f s).handler = s.handler) : Bookkeeping w (w.modifySession j f) := by
  refine ⟨rfl, rfl, rfl, fun k ↦ ?_⟩
  by_cases hk : k = j
  · subst hk
    rw [World.session_modifySession_self]
    exact hf _
  · rw [World.session_modifySession_of_ne w hk]
    exact ⟨rfl, rfl, rfl⟩

theorem bookkeeping_of_tends (h : Tends w w') : Bookkeeping w w' := by
  refine ⟨?_, ?_, ?_, fun j ↦ ?_⟩
  · rw [h.rest]
  · rw [h.rest]
  · rw [h.rest]
  · rw [h.session j]
    exact ⟨rfl, rfl, rfl⟩

theorem within_tendSessions (visits : List Slot) : (tendSessions visits).Within Tends := by
  induction visits with
  | nil => exact .pure ()
  | cons j visits ih =>
    exact (within_flushIdleDumper j).bind fun _ ↦ (within_superviseMonitor j).bind fun _ ↦ ih

/-! ## One packet -/

variable {B B' : Memory → Prop} {done rest : List Packet} {p : Packet}
  {pending : List (Slot × Chunk)}

variable (M) in
/-- Session `i` is between two packets, with the records of `done` written. -/
structure Idle (i : Slot) (done : List Packet) (B : Memory → Prop) (w : World) : Prop where
  /-- The stream is in order. -/
  invariant : M.Invariant w
  /-- The session does not hold the merge lock. -/
  free : w.mergeMutex ≠ some (.session i)
  /-- What is in its buffer. -/
  buffer : B (w.buffer i)
  /-- What has been written in its name. -/
  own : ofTag i (M.stream w) = ofTag i M.base ++ chunksOf (M.records done)

variable (M) in
/-- Session `i` holds the merge lock, with the records of `done` and then `pending` written. -/
structure Holding (i : Slot) (done : List Packet) (pending : List (Slot × Chunk))
    (B : Memory → Prop) (w : World) : Prop where
  /-- The stream is in order. -/
  invariant : M.Invariant w
  /-- The session holds the merge lock. -/
  holds : w.mergeMutex = some (.session i)
  /-- What is in its buffer. -/
  buffer : B (w.buffer i)
  /-- The stream ends with what is pending. -/
  grown : ∃ l, M.Grown l pending w ∧ ofTag i l = M.records done

theorem Idle.stable : Prog.Stable (M.Rely (.session i)) (M.Idle i done B) := by
  rintro w w' ⟨hinv, htouch⟩ h
  have htouch := htouch i rfl
  exact ⟨hinv h.invariant, fun h' ↦ h.free (htouch.mergeMutex.mp h'), htouch.buffer ▸ h.buffer,
    htouch.own.trans h.own⟩

theorem Holding.stable : Prog.Stable (M.Rely (.session i)) (M.Holding i done pending B) := by
  rintro w w' ⟨hinv, htouch⟩ h
  have htouch := htouch i rfl
  obtain ⟨l, hgrown, hown⟩ := h.grown
  exact ⟨hinv h.invariant, htouch.mergeMutex.mpr h.holds, htouch.buffer ▸ h.buffer,
    l, hgrown.congr (htouch.stream h.holds), hown⟩

/-- The holder of the lock leaves the others alone as long as it writes in its own name. -/
theorem untouched_of_holds {j : Slot} (hij : i ≠ j) (hholds : w.mergeMutex = some (.session i))
    (hmutex : w'.mergeMutex ≠ some (.session j)) (hbuffer : w'.buffer j = w.buffer j)
    (hown : ofTag j (M.stream w') = ofTag j (M.stream w)) : M.Untouched j w w' := by
  have hnot : w.mergeMutex ≠ some (.session j) := by
    rw [hholds]
    rintro ⟨⟩
    exact hij rfl
  exact ⟨hbuffer, iff_of_false hmutex hnot, fun h ↦ absurd h hnot, hown⟩

theorem Holding.of_bookkeeping (h : M.Holding i done pending B w) (hw : Bookkeeping w w') :
    M.Holding i done pending B w' := by
  obtain ⟨l, hgrown, hown⟩ := h.grown
  exact ⟨(hw.guarantee (.session i)).1 h.invariant, hw.mergeMutex.trans h.holds,
    congrFun hw.buffer i ▸ h.buffer, l, hgrown.congr hw.stream, hown⟩

theorem triple_modifySession (j : Slot) {f : Session → Session}
    (hf : ∀ s, (f s).pcapDumper = s.pcapDumper ∧ (f s).untunnel = s.untunnel ∧
      (f s).handler = s.handler) :
    Prog.Triple (M.Rely (.session i)) (M.Guarantee (.session i)) (M.Holding i done pending B)
      (modifySession j f) fun _ ↦ M.Holding i done pending B :=
  .modify Holding.stable Holding.stable
    (fun w _ ↦ (bookkeeping_modifySession w j hf).guarantee _)
    fun w h ↦ h.of_bookkeeping (bookkeeping_modifySession w j hf)

theorem triple_lockPcapMutex (j : Slot) :
    Prog.Triple (M.Rely (.session i)) (M.Guarantee (.session i)) (M.Holding i done pending B)
      (lockPcapMutex (.session i) j) fun _ ↦ M.Holding i done pending B := by
  have hlock : ∀ w : World,
      Bookkeeping w (w.modifySession j ({ · with pcapMutex := some (.session i) })) :=
    fun w ↦ bookkeeping_modifySession w j fun _ ↦ ⟨rfl, rfl, rfl⟩
  exact .await Holding.stable Holding.stable (fun w _ _ ↦ (hlock w).guarantee _)
    fun w h _ ↦ h.of_bookkeeping (hlock w)

theorem triple_unlockPcapMutex (j : Slot) :
    Prog.Triple (M.Rely (.session i)) (M.Guarantee (.session i)) (M.Holding i done pending B)
      (unlockPcapMutex j) fun _ ↦ M.Holding i done pending B :=
  triple_modifySession j (f := ({ · with pcapMutex := none })) fun _ ↦ ⟨rfl, rfl, rfl⟩

theorem triple_monitorIncrement (j : Slot) (packets bytes : ℤ) :
    Prog.Triple (M.Rely (.session i)) (M.Guarantee (.session i)) (M.Holding i done pending B)
      (monitorIncrement j packets bytes) fun _ ↦ M.Holding i done pending B :=
  triple_modifySession j
    (f := fun s ↦ { s with monitor := s.monitor.map (·.increment packets bytes) })
    fun _ ↦ ⟨rfl, rfl, rfl⟩

theorem triple_fillBuffer (data : Memory) :
    Prog.Triple (M.Rely (.session i)) (M.Guarantee (.session i)) (M.Idle i done B)
      (fillBuffer i data) fun _ ↦ M.Idle i done (· = data) := by
  refine .modify Idle.stable Idle.stable (fun w h ↦ ⟨fun hinv ↦ ?_, fun j hj ↦ ?_⟩) fun w h ↦ ?_
  · exact hinv.congr rfl rfl rfl
  · have hij : j ≠ i := fun hij ↦ hj (congrArg _ hij.symm)
    exact ⟨Function.update_of_ne hij _ _, Iff.rfl, fun _ ↦ rfl, rfl⟩
  · exact ⟨h.invariant.congr rfl rfl rfl, h.free, Function.update_self .., h.own⟩

/-- A session between two packets has had exactly the records of `done` written. -/
theorem Idle.ofTag_eq {l : List (Slot × Record)} (h : M.Idle i done B w)
    (hgrown : M.Grown l pending w) (hpending : M.Pending l pending w) :
    ofTag i l = M.records done := by
  have hnone : ofTag i pending = [] := by
    rcases hpending with rfl | ⟨j, r, rfl, hmutex, -⟩
    · rfl
    · refine ofTag_singleton_of_ne ?_ _
      rintro rfl
      exact h.free hmutex
  have hown := h.own
  rw [hgrown.stream_eq, ofTag_append, hnone, List.append_nil, ofTag_append,
    ofTag_taggedChunks] at hown
  exact chunksOf_injective (List.append_cancel_left hown)

theorem triple_lockMergeMutex :
    Prog.Triple (M.Rely (.session i)) (M.Guarantee (.session i)) (M.Idle i done B)
      (lockMergeMutex (.session i)) fun _ ↦ M.Holding i done [] B := by
  -- Nothing is pending while the lock is free.
  have hfree : ∀ w, M.Invariant w → w.mergeMutex.isNone = true → ∃ l, M.Grown l [] w := by
    intro w hinv hnone
    obtain ⟨l, pending, hgrown, rfl | ⟨j, r, -, hmutex, -⟩⟩ := hinv.grown
    · exact ⟨l, hgrown⟩
    · rw [hmutex] at hnone
      cases hnone
  have hinvariant : ∀ w, M.Invariant w → w.mergeMutex.isNone = true →
      M.Invariant { w with mergeMutex := some (.session i) } := by
    intro w hinv hnone
    obtain ⟨l, hgrown⟩ := hfree w hinv hnone
    exact hinv.of_session (fun _ ↦ ⟨rfl, rfl, rfl⟩) ⟨l, [], hgrown.congr rfl, .inl rfl⟩
  refine .await Idle.stable Holding.stable
    (fun w h hnone ↦ ⟨fun hinv ↦ hinvariant w hinv hnone, fun j hj ↦ ?_⟩) fun w h hnone ↦ ?_
  · have hnot : w.mergeMutex ≠ some (.session j) := by
      intro hmutex
      rw [hmutex] at hnone
      cases hnone
    refine ⟨rfl, iff_of_false ?_ hnot, fun _ ↦ rfl, rfl⟩
    rintro ⟨⟩
    exact hj rfl
  · obtain ⟨l, hgrown⟩ := hfree w h.invariant hnone
    exact ⟨hinvariant w h.invariant hnone, rfl, h.buffer, l, hgrown.congr rfl,
      h.ofTag_eq hgrown (.inl rfl)⟩

theorem Invariant.of_untunnel (hinv : M.Invariant w) (header : PcapPkthdr) :
    M.Invariant (w.untunnel M.merger i header) := by
  obtain ⟨l, pending, hgrown, hpending⟩ := hinv.grown
  refine hinv.of_session (fun j ↦ ?_) ⟨l, pending, hgrown.congr rfl, hpending.congr rfl⟩
  by_cases hj : j = M.merger
  · rw [hj, World.untunnel, World.session_modifySession_self]
    exact ⟨rfl, rfl, rfl⟩
  · rw [World.untunnel, World.session_modifySession_of_ne _ hj]
    exact ⟨rfl, rfl, rfl⟩

theorem triple_untunnelledHeader :
    Prog.Triple (M.Rely (.session i)) (M.Guarantee (.session i)) (M.Holding i done [] (· = p.data))
      (untunnelledHeader M.merger i p.header) fun header ↦
        M.Holding i done [] fun data ↦ dumpRecord header data = mergedRecord M.untunnel p := by
  refine .read_bind M.untunnel Holding.stable (fun w h ↦ h.invariant.untunnel) ?_
  cases huntunnel : M.untunnel with
  | false =>
    refine .pure Holding.stable fun w h ↦ ⟨h.invariant, h.holds, ?_, h.grown⟩
    rw [h.buffer]
    rfl
  | true =>
    refine .update Holding.stable (fun _ ↦ Holding.stable)
      (fun w h ↦ ⟨fun hinv ↦ hinv.of_untunnel p.header, fun j hj ↦ ?_⟩) fun w h ↦ ?_
    · have hij : i ≠ j := fun hij ↦ hj (congrArg _ hij)
      refine untouched_of_holds hij h.holds ?_ (Function.update_of_ne (Ne.symm hij) _ _) rfl
      intro hmutex
      exact hij (by simpa using h.holds.symm.trans hmutex)
    · obtain ⟨l, hgrown, hown⟩ := h.grown
      refine ⟨h.invariant.of_untunnel p.header, h.holds, ?_, l, hgrown.congr rfl, hown⟩
      obtain ⟨hheader, hdata⟩ := pcapsessionUntunnelPacket_monitor
        (w.session M.merger).monitor p.header p.data
      change dumpRecord _ (Function.update w.buffer i _ i) = _
      rw [Function.update_self, h.buffer, hheader, hdata]
      rfl

theorem stream_write (w : World) (i : Slot) (chunk : Chunk) :
    M.stream (w.write M.dumper i chunk) = M.stream w ++ [(i, chunk)] := Function.update_self ..

theorem guarantee_write {chunk : Chunk} (hholds : w.mergeMutex = some (.session i))
    (hinv : M.Invariant (w.write M.dumper i chunk)) :
    M.Guarantee (.session i) w (w.write M.dumper i chunk) := by
  refine ⟨fun _ ↦ hinv, fun j hj ↦ ?_⟩
  have hij : i ≠ j := fun hij ↦ hj (congrArg _ hij)
  refine untouched_of_holds hij hholds ?_ rfl ?_
  · intro hmutex
    exact hij (by simpa using hholds.symm.trans hmutex)
  · rw [stream_write, ofTag_append, ofTag_singleton_of_ne hij, List.append_nil]

theorem records_concat_prefix (hpackets : M.packets i = done ++ p :: rest) :
    M.records done ++ [mergedRecord M.untunnel p] <+: M.records (M.packets i) := by
  rw [hpackets]
  exact ⟨M.records rest, by simp [records]⟩

theorem Holding.write_header {header : PcapPkthdr} {data : Memory}
    (hrecord : dumpRecord header data = mergedRecord M.untunnel p)
    (hpackets : M.packets i = done ++ p :: rest) (h : M.Holding i done [] B w) :
    M.Holding i done [(i, .header header)] B (w.write M.dumper i (.header header)) := by
  obtain ⟨l, hgrown, hown⟩ := h.grown
  have hgrown' : M.Grown l [(i, .header header)] (w.write M.dumper i (.header header)) := by
    refine ⟨?_, hgrown.isPrefix⟩
    rw [stream_write, hgrown.stream_eq, List.append_nil]
  refine ⟨?_, h.holds, h.buffer, l, hgrown', hown⟩
  refine h.invariant.of_session (fun _ ↦ ⟨rfl, rfl, rfl⟩) ⟨l, _, hgrown', .inr ?_⟩
  refine ⟨i, mergedRecord M.untunnel p, ?_, h.holds, hown ▸ records_concat_prefix hpackets⟩
  rw [← hrecord]
  rfl

theorem Holding.write_bytes {header : PcapPkthdr} {bytes : List UInt8}
    (hrecord : ⟨header, bytes⟩ = mergedRecord M.untunnel p)
    (hpackets : M.packets i = done ++ p :: rest)
    (h : M.Holding i done [(i, .header header)] B w) :
    M.Holding i (done ++ [p]) [] (fun _ ↦ True) (w.write M.dumper i (.bytes bytes)) := by
  obtain ⟨l, hgrown, hown⟩ := h.grown
  have hown' : ofTag i (l ++ [(i, mergedRecord M.untunnel p)]) = M.records (done ++ [p]) := by
    rw [ofTag_append, ofTag_singleton_self, hown, records, records, List.map_append]
    rfl
  have hgrown' : M.Grown (l ++ [(i, mergedRecord M.untunnel p)]) []
      (w.write M.dumper i (.bytes bytes)) := by
    refine ⟨?_, fun j ↦ ?_⟩
    · rw [stream_write, hgrown.stream_eq, taggedChunks_concat, ← hrecord]
      simp only [List.append_assoc, List.append_nil]
    · by_cases hji : j = i
      · subst hji
        rw [ofTag_append, ofTag_singleton_self, hown]
        exact records_concat_prefix hpackets
      · rw [ofTag_append, ofTag_singleton_of_ne (Ne.symm hji), List.append_nil]
        exact hgrown.isPrefix j
  refine ⟨?_, h.holds, trivial, _, hgrown', hown'⟩
  exact h.invariant.of_session (fun _ ↦ ⟨rfl, rfl, rfl⟩) ⟨_, [], hgrown', .inl rfl⟩

theorem triple_pcapDump {header : PcapPkthdr} (hpackets : M.packets i = done ++ p :: rest) :
    Prog.Triple (M.Rely (.session i)) (M.Guarantee (.session i))
      (M.Holding i done [] fun data ↦ dumpRecord header data = mergedRecord M.untunnel p)
      (pcapDump (some M.dumper) i header (·.buffer i)) fun _ ↦
        M.Holding i (done ++ [p]) [] fun _ ↦ True := by
  refine Prog.Triple.bind (Prog.Triple.modify Holding.stable Holding.stable
    (fun w h ↦ guarantee_write h.holds (h.write_header h.buffer hpackets).invariant)
    fun w h ↦ h.write_header h.buffer hpackets) fun _ ↦ ?_
  exact .modify Holding.stable Holding.stable
    (fun w h ↦ guarantee_write h.holds (h.write_bytes h.buffer hpackets).invariant)
    fun w h ↦ h.write_bytes h.buffer hpackets

theorem triple_unlockMergeMutex :
    Prog.Triple (M.Rely (.session i)) (M.Guarantee (.session i)) (M.Holding i done [] B)
      unlockMergeMutex fun _ ↦ M.Idle i done B := by
  have hinvariant : ∀ w, M.Holding i done [] B w → M.Invariant { w with mergeMutex := none } := by
    intro w h
    obtain ⟨l, hgrown, -⟩ := h.grown
    exact h.invariant.of_session (fun _ ↦ ⟨rfl, rfl, rfl⟩) ⟨l, [], hgrown.congr rfl, .inl rfl⟩
  refine .modify Holding.stable Idle.stable
    (fun w h ↦ ⟨fun _ ↦ hinvariant w h, fun j hj ↦ ?_⟩) fun w h ↦ ?_
  · exact untouched_of_holds (fun hij ↦ hj (congrArg _ hij)) h.holds (fun h ↦ (nomatch h)) rfl rfl
  · obtain ⟨l, hgrown, hown⟩ := h.grown
    refine ⟨hinvariant w h, fun h ↦ (nomatch h), h.buffer, ?_⟩
    change ofTag i (M.stream w) = _
    rw [hgrown.stream_eq, List.append_nil, ofTag_append, ofTag_taggedChunks, hown]

/-- A handler call writes the record of its packet. -/
theorem triple_pcapsessionMergerPacketHandler (hpackets : M.packets i = done ++ p :: rest) :
    Prog.Triple (M.Rely (.session i)) (M.Guarantee (.session i)) (M.Idle i done (· = p.data))
      (pcapsessionMergerPacketHandler i p.header) fun _ ↦
        M.Idle i (done ++ [p]) fun _ ↦ True := by
  have hne : M.packets i ≠ [] := by
    rw [hpackets]
    simp
  refine .read_bind (some M.merger) Idle.stable (fun w h ↦ h.invariant.handler i hne) ?_
  refine triple_lockMergeMutex.bind fun _ ↦ triple_untunnelledHeader.bind fun header ↦ ?_
  refine (triple_lockPcapMutex M.merger).bind fun _ ↦ ?_
  refine .read_bind (some M.dumper) Holding.stable (fun w h ↦ h.invariant.dumper) ?_
  refine (triple_pcapDump hpackets).bind fun _ ↦ ?_
  refine (triple_unlockPcapMutex M.merger).bind fun _ ↦ ?_
  refine (triple_monitorIncrement i 1 _).bind fun _ ↦ ?_
  exact (triple_monitorIncrement M.merger 1 _).bind fun _ ↦ triple_unlockMergeMutex

/-- The loop over the packets of a connection, by induction on the packets that are still to come.
-/
theorem triple_mergerPcapLoop (hpackets : M.packets i = done ++ rest) :
    Prog.Triple (M.Rely (.session i)) (M.Guarantee (.session i)) (M.Idle i done B)
      (mergerPcapLoop i rest) fun _ ↦ M.Idle i (M.packets i) fun _ ↦ True := by
  induction rest generalizing done B with
  | nil =>
    rw [List.append_nil] at hpackets
    rw [hpackets]
    exact .pure Idle.stable fun w h ↦ ⟨h.invariant, h.free, trivial, h.own⟩
  | cons p rest ih =>
    refine (triple_fillBuffer p.data).bind fun _ ↦ ?_
    refine (triple_pcapsessionMergerPacketHandler hpackets).bind fun _ ↦ ih ?_
    rw [hpackets, List.append_assoc]
    rfl

/-- What the programs of the pool come to. -/
def Done (M : Merging) : Agent → Unit → World → Prop
  | .supervisor => fun _ _ ↦ True
  | .session i => fun _ ↦ M.Idle i (M.packets i) fun _ ↦ True

theorem sat_mergePool (visits : List Slot) (hinv : M.Invariant w) (hfree : w.mergeMutex = none)
    (hbase : M.stream w = M.base) (a : Agent) :
    (mergePool M.packets visits a).Sat (M.Rely a) (M.Guarantee a) (M.Done a) w := by
  cases a with
  | supervisor =>
    exact ((within_tendSessions visits).sat w).mono
      (fun w w' h ↦ (bookkeeping_of_tends h).guarantee _) fun _ _ h ↦ h
  | session i =>
    have hloop := triple_mergerPcapLoop (M := M) (B := fun _ ↦ True)
      (List.nil_append (M.packets i)).symm
    refine hloop w ⟨hinv, ?_, trivial, ?_⟩
    · rw [hfree]
      exact fun h ↦ (nomatch h)
    · rw [hbase]
      exact (List.append_nil _).symm

end Merging

/-! ## Every interleaving of the threads -/

/-- **Merging is an interleaving.** However the handler calls of the client sessions and the
supervisor's visits are interleaved, the merged stream grows by whole records, each of them the
image of one packet and written for the session that received it, in the order of its connection;
at most one header is still without its bytes, that of a packet which is being handled. The session
whose loop has come to an end has had every packet of its connection written. -/
theorem merged_stream_interleaves (packets : Slot → List Packet) (visits : List Slot)
    (merger : Slot) (dumper : PcapDumper) (w w' : World) (pool : Agent → SessionProg Unit)
    (hdumper : (w.session merger).pcapDumper = some dumper) (hmutex : w.mergeMutex = none)
    (hhandler : ∀ i, packets i ≠ [] → (w.session i).handler = some merger)
    (hrun : Prog.PoolReaches (mergePool packets visits) w pool w') :
    ∃ (records : List (Slot × Record)) (pending : List (Slot × Chunk)),
      w'.written dumper.id = w.written dumper.id ++ taggedChunks records ++ pending ∧
      (pending = [] ∨ ∃ i r, pool (.session i) ≠ .ret () ∧ pending = [(i, .header r.header)] ∧
        ofTag i records ++ [r]
          <+: (packets i).map (mergedRecord (w.session merger).untunnel)) ∧
      (∀ i, ofTag i records <+: (packets i).map (mergedRecord (w.session merger).untunnel)) ∧
      (∀ i, pool (.session i) = .ret () →
        ofTag i records = (packets i).map (mergedRecord (w.session merger).untunnel)) ∧
      ((∀ i, pool (.session i) = .ret ()) → pending = [] ∧
        Interleaves records fun i ↦
          (packets i).map (mergedRecord (w.session merger).untunnel)) := by
  let M : Merging :=
    ⟨merger, dumper, (w.session merger).untunnel, w.written dumper.id, packets⟩
  have hinv : M.Invariant w := by
    refine ⟨hdumper, rfl, hhandler, [], [], ⟨?_, fun j ↦ List.nil_prefix⟩, .inl rfl⟩
    rw [taggedChunks_nil, List.append_nil, List.append_nil]
    rfl
  obtain ⟨hsat, hinv'⟩ := hrun.sat (R := M.Rely) (G := M.Guarantee) (I := M.Invariant)
    (fun _ _ hab _ _ h ↦ Merging.Guarantee.rely hab h) (fun _ _ _ h ↦ h.1)
    (Merging.sat_mergePool visits hinv hmutex rfl) hinv
  obtain ⟨records, pending, hgrown, hpending⟩ := hinv'.grown
  -- a session whose loop is over is in the middle of no packet
  have hidle : ∀ i, pool (.session i) = .ret () → M.Idle i (packets i) (fun _ ↦ True) w' := by
    intro i hret
    have hret' := hsat (.session i)
    rw [hret] at hret'
    exact hret'.ret
  have hpending' : pending = [] ∨ ∃ i r, pool (.session i) ≠ .ret () ∧
      pending = [(i, .header r.header)] ∧ ofTag i records ++ [r] <+: M.records (packets i) := by
    rcases hpending with hnil | ⟨i, r, heq, hholds, hprefix⟩
    · exact .inl hnil
    · exact .inr ⟨i, r, fun hret ↦ (hidle i hret).free hholds, heq, hprefix⟩
  have hdone : ∀ i, pool (.session i) = .ret () → ofTag i records = M.records (packets i) :=
    fun i hret ↦ (hidle i hret).ofTag_eq hgrown hpending
  refine ⟨records, pending, hgrown.stream_eq, hpending', hgrown.isPrefix, hdone, fun hall ↦ ?_⟩
  refine ⟨?_, fun i ↦ hdone i (hall i)⟩
  rcases hpending' with hnil | ⟨i, r, hnot, -⟩
  · exact hnil
  · exact absurd (hall i) hnot

/-- An untunnelling merger in slot 0 with an open dumper, and clients in slots 1 and 2 that hand it
their packets. -/
def mergingWorld : World :=
  { World.init with
    session := fun i ↦
      if i = 0 then
        { Session.zero with state := .running, pcapDumper := some ⟨0, 5⟩, untunnel := true }
      else if i = 1 ∨ i = 2 then { Session.zero with state := .running, handler := some 0 }
      else Session.zero
    openFds := {5} }

/-- One packet on each of the two connections. -/
def twoConnections (i : Slot) : List Packet :=
  if i = 1 then [gtpFrame 0x30 0xff] else if i = 2 then [gtpFrame 0x34 1] else []

/-- Two clients come to the end of their packets. -/
theorem merged_stream_interleaves_twoConnections :
    ∃ pool w', Prog.PoolReaches (mergePool twoConnections [0]) mergingWorld pool w' ∧
      (∀ i, pool (.session i) = .ret ()) ∧ ∃ records, w'.written 0 = taggedChunks records ∧
        Interleaves records fun i ↦ (twoConnections i).map untunnelRecord := by
  have hexec : (((mergerPcapLoop 1 (twoConnections 1)).exec (fun _ ↦ 0) mergingWorld).bind
      fun x ↦ (mergerPcapLoop 2 (twoConnections 2)).exec (fun _ ↦ 0) x.2).isSome = true := by
    decide
  obtain ⟨⟨⟨⟩, w'⟩, hexec⟩ := Option.isSome_iff_exists.mp hexec
  obtain ⟨⟨⟨⟩, w₁⟩, hexec₁, hexec₂⟩ := Option.bind_eq_some_iff.mp hexec
  let pool := mergePool twoConnections [0]
  let pool₁ := Function.update pool (.session 1) (.ret ())
  have hrun₁ : Prog.PoolReaches pool mergingWorld pool₁ w₁ :=
    Prog.PoolReaches.exec (Agent.session 1) hexec₁
  have hrun : Prog.PoolReaches pool mergingWorld
      (Function.update pool₁ (.session 2) (.ret ())) w' :=
    hrun₁.trans (Prog.PoolReaches.exec (Agent.session 2) hexec₂)
  have hret : ∀ i, Function.update pool₁ (.session 2) (.ret ()) (.session i) = .ret () := by
    intro i
    by_cases h₂ : i = 2
    · rw [h₂, Function.update_self]
    · rw [Function.update_of_ne (fun h ↦ h₂ (Agent.session.inj h))]
      by_cases h₁ : i = 1
      · rw [h₁]
        exact Function.update_self ..
      · refine (Function.update_of_ne (fun h ↦ h₁ (Agent.session.inj h)) _ _).trans ?_
        simp only [pool, mergePool, twoConnections, h₁, h₂, if_false]
        rfl
  have hhandler : ∀ i, twoConnections i ≠ [] → (mergingWorld.session i).handler = some 0 := by
    decide
  obtain ⟨records, pending, heq, -, -, -, hdone⟩ := merged_stream_interleaves twoConnections [0] 0
    ⟨0, 5⟩ mergingWorld w' _ rfl rfl hhandler hrun
  obtain ⟨hnil, hrecords⟩ := hdone hret
  refine ⟨_, w', hrun, hret, records, ?_, hrecords⟩
  rw [heq, hnil, List.append_nil]
  rfl

end DistributorMerger
