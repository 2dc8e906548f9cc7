import DistributorMerger.Session.Distribution

/-!
# From the captures to the merged file

A distributer writes what it captures to the connections that are on its list, and a merger process
reads such connections, each in a client session of its own, and writes what it reads to one file.
The connection itself is taken for what it is: the client reads whole records, and what it has read
is the beginning of what the distributer has written.

What the merged file holds for a connection then comes from one block of captured packets, from the
first one after the connection was put on the list and without a gap, in their order.
-/

namespace DistributorMerger

/-- A run of a distributer that puts a client connection on its list. -/
structure Feed where
  /-- What has happened before. -/
  before : List Event
  /-- The event that puts the connection on the list. -/
  listing : Event
  /-- What has happened since. -/
  after : List Event
  /-- The distributer in front of that event. -/
  unlisted : System
  /-- The distributer behind it. -/
  listed : System
  /-- The distributer at the end of the run. -/
  last : System
  /-- The slot of the connection. -/
  slot : Slot
  /-- Its dumper. -/
  dumper : PcapDumper
  /-- The run up to the event. -/
  run_before : System.init.run before = some unlisted
  /-- The event happens. -/
  step_listing : unlisted.step listing = some listed
  /-- The rest of the run. -/
  run_after : listed.run after = some last
  /-- The connection has not been on the list. -/
  not_listed : unlisted.world.clientconnlist slot = none
  /-- It has been put on the list. -/
  is_listed : listed.world.clientconnlist slot ≠ none
  /-- It writes to its dumper. -/
  dumper_eq : (listed.world.session slot).pcapDumper = some dumper

/-- What has been written to the connection. -/
def Feed.stream (F : Feed) : List Chunk := (F.last.world.written F.dumper.id).map Prod.snd

/-- The packets that have been captured since the connection was put on the list. -/
def Feed.captured (F : Feed) : List Packet := handled F.after

section Streams

variable {rs rs' : List Record} {qs block : List Packet} {untunnel : Bool}

theorem map_snd_taggedChunks (j : Slot) (ps : List Packet) :
    (taggedChunks (ps.map fun p ↦ (j, p.record))).map Prod.snd
      = chunksOf (ps.map Packet.record) := by
  induction ps with
  | nil => rfl
  | cons p ps ih =>
    have hcons : taggedChunks ((j, p.record) :: ps.map fun p ↦ (j, p.record))
        = (j, .header p.record.header) :: (j, .bytes p.record.bytes)
          :: taggedChunks (ps.map fun p ↦ (j, p.record)) := rfl
    rw [List.map_cons, hcons, List.map_cons, List.map_cons, ih]
    rfl

theorem isPrefix_of_chunksOf (h : chunksOf rs <+: chunksOf rs') : rs <+: rs' := by
  induction rs generalizing rs' with
  | nil => exact List.nil_prefix
  | cons r rs ih =>
    have hcons : ∀ r rs, chunksOf (r :: rs) = .header r.header :: .bytes r.bytes :: chunksOf rs :=
      fun _ _ ↦ rfl
    cases rs' with
    | nil =>
      rw [hcons, chunksOf_nil, List.prefix_nil] at h
      cases h
    | cons r' rs' =>
      rw [hcons, hcons, List.cons_prefix_cons, List.cons_prefix_cons] at h
      obtain ⟨hheader, hbytes, hrest⟩ := h
      have hr : r = r' :=
        congrArg₂ Record.mk (Chunk.header.inj hheader) (Chunk.bytes.inj hbytes)
      rw [hr]
      exact List.cons_prefix_cons.mpr ⟨rfl, ih hrest⟩

/-- **One block of captured packets.** What a distributer has written to a connection are the
records of the first packets that it has captured since the connection was put on the list. -/
theorem Feed.stream_eq (F : Feed) :
    ∃ block, block <+: F.captured ∧ F.stream = chunksOf (block.map Packet.record) := by
  obtain ⟨hsound, hhosts⟩ := System.hosts_of_run F.run_before
  obtain ⟨d, hlive, hempty⟩ := hhosts.enlists hsound F.step_listing F.not_listed F.is_listed
  obtain rfl : d = F.dumper := Option.some.inj (hlive.serves.dumper.symm.trans F.dumper_eq)
  have hwritten := hlive.run (hhosts.step hsound F.step_listing)
    (hsound.step F.step_listing).2 F.run_after
  refine ⟨_, received_initial F.dumper.fd F.slot (decide (F.listed.world.handlingState ≠ .running))
    F.after, ?_⟩
  rw [Feed.stream, hwritten, hempty, List.nil_append, map_snd_taggedChunks]

/-- A merged record comes from a captured packet: it is what the merger makes of a packet with the
same record. -/
def ComesFrom (untunnel : Bool) (r : Record) (p : Packet) : Prop :=
  ∃ q : Packet, q.record = p.record ∧ r = mergedRecord untunnel q

theorem comesFrom_of_records (h : qs.map Packet.record = block.map Packet.record) :
    List.Forall₂ (ComesFrom untunnel) (qs.map (mergedRecord untunnel)) block := by
  induction qs generalizing block with
  | nil =>
    rw [List.map_nil, eq_comm, List.map_eq_nil_iff] at h
    rw [h]
    exact .nil
  | cons q qs ih =>
    cases block with
    | nil => cases h
    | cons p block =>
      obtain ⟨hrecord, hrest⟩ := List.cons.inj h
      exact .cons ⟨q, hrecord, rfl⟩ (ih hrest)

/-- A merger that does not untunnel copies the captured records. -/
theorem eq_of_comesFrom (h : List.Forall₂ (ComesFrom false) rs block) :
    rs = block.map Packet.record := by
  induction h with
  | nil => rfl
  | cons hr _ ih =>
    obtain ⟨q, hrecord, rfl⟩ := hr
    rw [List.map_cons, ih, ← hrecord]
    rfl

theorem exists_block (F : Feed) (hread : chunksOf (qs.map Packet.record) <+: F.stream)
    (hmerged : rs <+: qs.map (mergedRecord untunnel)) :
    ∃ block, block <+: F.captured ∧ List.Forall₂ (ComesFrom untunnel) rs block := by
  obtain ⟨sent, hsent, hstream⟩ := F.stream_eq
  rw [hstream] at hread
  have hrecords := isPrefix_of_chunksOf hread
  have hrs : rs = (qs.take rs.length).map (mergedRecord untunnel) := by
    rw [List.map_take]
    exact List.prefix_iff_eq_take.mp hmerged
  have hlength : rs.length ≤ (qs.map Packet.record).length := by
    have hle := hmerged.length_le
    rwa [List.length_map] at hle ⊢
  have hsame : (qs.take rs.length).map Packet.record
      = (sent.take rs.length).map Packet.record := by
    rw [List.map_take, List.map_take, List.prefix_iff_eq_take.mp hrecords, List.take_take,
      Nat.min_eq_left hlength]
  refine ⟨sent.take rs.length, (List.take_prefix _ _).trans hsent, ?_⟩
  have hfrom : List.Forall₂ (ComesFrom untunnel) _ _ := comesFrom_of_records hsame
  rwa [← hrs] at hfrom

end Streams

/-- In a run of the merging threads the merged stream grows by whole records, and at most one header
that is still without its bytes; a session whose loop is over has had all its packets written. -/
theorem Merging.grown_of_run (M : Merging) {visits : List Slot} {w w' : World}
    {pool : Agent → SessionProg Unit} (hinv : M.Invariant w) (hmutex : w.mergeMutex = none)
    (hbase : M.stream w = M.base)
    (hrun : Prog.PoolReaches (mergePool M.packets visits) w pool w') :
    ∃ records pending, M.Grown records pending w' ∧ M.Pending records pending w' ∧
      ∀ i, pool (.session i) = .ret () → ofTag i records = M.records (M.packets i) := by
  obtain ⟨hsat, hinv'⟩ := hrun.sat (R := M.Rely) (G := M.Guarantee) (I := M.Invariant)
    (fun _ _ hab _ _ h ↦ Merging.Guarantee.rely hab h) (fun _ _ _ h ↦ h.1)
    (Merging.sat_mergePool visits hinv hmutex hbase) hinv
  obtain ⟨records, pending, hgrown, hpending⟩ := hinv'.grown
  refine ⟨records, pending, hgrown, hpending, fun i hret ↦ ?_⟩
  have hdone := hsat (.session i)
  rw [hret] at hdone
  have hidle : M.Idle i (M.packets i) (fun _ ↦ True) w' := hdone.ret
  exact hidle.ofTag_eq hgrown hpending

/-- **From the captures to the merged file.** Let every client of a merger have read the beginning
of what a distributer has written to its connection. However the threads of the clients are
interleaved, what the merged file has grown by are whole records, but for one header at the most,
and those that come from one connection are what the merger makes of a block of captured packets,
from the first one after the connection was put on the list and without a gap, in their order. The
block has as many packets as the client has read when its loop is over, and without untunnelling the
records are those that were captured. -/
theorem merged_file_of_captures (feed : Slot → Feed) (packets : Slot → List Packet)
    (hread : ∀ i, chunksOf ((packets i).map Packet.record) <+: (feed i).stream)
    (visits : List Slot) (merger : Slot) (dumper : PcapDumper) (w w' : World)
    (pool : Agent → SessionProg Unit) (hdumper : (w.session merger).pcapDumper = some dumper)
    (hmutex : w.mergeMutex = none)
    (hhandler : ∀ i, packets i ≠ [] → (w.session i).handler = some merger)
    (hrun : Prog.PoolReaches (mergePool packets visits) w pool w') :
    ∃ (records : List (Slot × Record)) (pending : List (Slot × Chunk)),
      w'.written dumper.id = w.written dumper.id ++ taggedChunks records ++ pending ∧
      pending.length ≤ 1 ∧
      ∀ i, ∃ block, block <+: (feed i).captured ∧
        List.Forall₂ (ComesFrom (w.session merger).untunnel) (ofTag i records) block ∧
        (pool (.session i) = .ret () → block.length = (packets i).length) ∧
        ((w.session merger).untunnel = false → ofTag i records = block.map Packet.record) := by
  let M : Merging :=
    ⟨merger, dumper, (w.session merger).untunnel, w.written dumper.id, packets⟩
  have hinv : M.Invariant w := by
    refine ⟨hdumper, rfl, hhandler, [], [], ⟨?_, fun j ↦ List.nil_prefix⟩, .inl rfl⟩
    rw [taggedChunks_nil, List.append_nil, List.append_nil]
    rfl
  obtain ⟨records, pending, hgrown, hpending, hdone⟩ := M.grown_of_run hinv hmutex rfl hrun
  refine ⟨records, pending, hgrown.stream_eq, ?_, fun i ↦ ?_⟩
  · rcases hpending with rfl | ⟨i, r, rfl, -⟩
    · exact Nat.zero_le _
    · exact le_refl _
  · obtain ⟨block, hblock, hfrom⟩ := exists_block (feed i) (hread i) (hgrown.isPrefix i)
    refine ⟨block, hblock, hfrom, fun hret ↦ ?_, fun hplain ↦ ?_⟩
    · rw [← hfrom.length_eq, hdone i hret]
      exact List.length_map ..
    · rw [show M.untunnel = false from hplain] at hfrom
      exact eq_of_comesFrom hfrom

/-- A packet is captured for a client, which a merger process reads and merges. -/
theorem merged_file_of_captures_one :
    ∃ (feed : Slot → Feed) (packets : Slot → List Packet) (pool : Agent → SessionProg Unit)
      (w' : World), packets 1 ≠ [] ∧
      Prog.PoolReaches (mergePool packets []) mergingWorld pool w' ∧
      ∃ records pending, w'.written 0 = taggedChunks records ++ pending ∧ ∀ i, ∃ block,
        block <+: (feed i).captured ∧
        List.Forall₂ (ComesFrom true) (ofTag i records) block := by
  let silent : Query → ℤ := fun q ↦ if q = .openServerSocket then 3 else 0
  let p : Packet := ⟨⟨0, 0, 1, 1⟩, fun _ ↦ 7⟩
  let before : List Event := [.opens .server silent, .visits 0 silent, .runs 1 0, .runs 1 1,
    .runs 1 0, .runs 1 0, .runs 1 4, .runs 1 0, .visits 1 silent, .runs 2 0, .runs 2 0, .runs 2 0,
    .runs 2 0, .runs 2 0, .runs 2 0]
  have hrun : ((System.init.run before).bind fun c ↦ (c.step (.runs 2 0)).bind fun c₁ ↦
      (c₁.run [.captures 2 p silent]).map fun c₂ ↦ (c.world.clientconnlist 1,
        c₁.world.clientconnlist 1, (c₁.world.session 1).pcapDumper, c₂.world.written 0))
          = some (none, some 1, some ⟨0, 4⟩, taggedChunks [(1, p.record)]) := by decide +kernel
  obtain ⟨c, hrun, hend⟩ := Option.bind_eq_some_iff.mp hrun
  obtain ⟨c₁, hstep, hend⟩ := Option.bind_eq_some_iff.mp hend
  obtain ⟨c₂, hrun', hend⟩ := Option.map_eq_some_iff.mp hend
  obtain ⟨hnone, hend⟩ := Prod.mk.inj hend
  obtain ⟨hsome, hend⟩ := Prod.mk.inj hend
  obtain ⟨hdumper, hwritten⟩ := Prod.mk.inj hend
  let F : Feed := ⟨before, .runs 2 0, [.captures 2 p silent], c, c₁, c₂, 1, ⟨0, 4⟩, hrun, hstep,
    hrun', hnone, by rw [hsome]; exact Option.some_ne_none _, hdumper⟩
  let packets : Slot → List Packet := fun i ↦ if i = 1 then [p] else []
  have hread : ∀ i, chunksOf ((packets i).map Packet.record) <+: F.stream := by
    intro i
    by_cases hi : i = 1
    · rw [show packets i = [p] from if_pos hi, Feed.stream, show F.last.world.written F.dumper.id
        = taggedChunks [(1, p.record)] from hwritten]
      exact List.prefix_refl _
    · rw [show packets i = [] from if_neg hi]
      exact List.nil_prefix
  have hexec : ((mergerPcapLoop 1 (packets 1)).exec (fun _ ↦ 0) mergingWorld).isSome = true := by
    decide
  obtain ⟨⟨⟨⟩, w'⟩, hexec⟩ := Option.isSome_iff_exists.mp hexec
  have hpool : Prog.PoolReaches (mergePool packets []) mergingWorld _ w' :=
    Prog.PoolReaches.exec (Agent.session 1) hexec
  have hhandler : ∀ i, packets i ≠ [] → (mergingWorld.session i).handler = some 0 := by
    intro i hi
    by_cases h : i = 1
    · rw [h]
      rfl
    · exact absurd (if_neg h) hi
  obtain ⟨records, pending, heq, -, hblocks⟩ := merged_file_of_captures (fun _ ↦ F) packets hread []
    0 ⟨0, 5⟩ mergingWorld w' _ rfl rfl hhandler hpool
  refine ⟨fun _ ↦ F, packets, _, w', List.cons_ne_nil p [], hpool, records, pending, ?_, fun i ↦ ?_⟩
  · rw [heq]
    rfl
  · obtain ⟨block, hblock, hfrom, -⟩ := hblocks i
    exact ⟨block, hblock, hfrom⟩

end DistributorMerger
