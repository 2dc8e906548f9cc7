import DistributorMerger.Pcap.Packet
import DistributorMerger.Ledger.GreedyCut

/-!
# Splitting a capture file into chunks

`chunkpcapfile` copies a capture file into numbered chunk files of bounded size. Its packet handler
works on three globals: the dumper of the chunk being written, the number of the next chunk, and
the size used so far, which counts `sizeof(struct pcap_pkthdr)` and the captured bytes of each
packet. A packet that would take the size past the maximum closes the chunk and opens the next one
before it is dumped.

The sizes and the number are `unsigned long`. What the program does not decide is left to
parameters: whether the input opens and the packets that `pcap_loop` delivers from it, and which
chunk files `pcap_dump_open` can open.
-/

namespace DistributorMerger

/-- `MIN_CHUNK_SIZE`. -/
def minChunkSize : UInt64 := 0x100000

/-- `sizeof(struct pcap_pkthdr)`. -/
def sizeofPcapPkthdr : UInt64 := 24

/-- A chunk file: the number in its name and the records dumped to it. -/
structure ChunkFile where
  /-- The number in the file name. -/
  chunkNo : UInt64
  /-- The records written. -/
  records : List Record
  deriving DecidableEq, Repr

/-- The globals of the program, and the chunk files it has closed. -/
structure Chunker where
  /-- `pcap_dumper`: the chunk being written. -/
  pcapDumper : Option ChunkFile := none
  /-- `chunk_no`: the number of the next chunk. -/
  chunkNo : UInt64 := 0
  /-- `chunk_used`: the size of the chunk being written. -/
  chunkUsed : UInt64 := 0
  /-- The chunks written so far, in the order in which they were opened. -/
  closed : List ChunkFile := []
  deriving DecidableEq, Repr

/-- How a filter program ends before it has handled all packets. -/
inductive Ended
  /-- A null dumper is dereferenced. -/
  | crashed
  /-- The program exits with a status. -/
  | exited (status : ℕ)
  deriving DecidableEq, Repr

namespace Chunker

/-- All chunk files of the run so far, in the order in which they were opened. -/
def files (s : Chunker) : List ChunkFile := s.closed ++ s.pcapDumper.toList

/-- Close the dumper and forget it, with the size that was used. -/
def closeDumper (s : Chunker) : Except Ended Chunker :=
  match s.pcapDumper with
  | none => .error .crashed
  | some f => .ok { s with pcapDumper := none, chunkUsed := 0, closed := s.closed ++ [f] }

/-- Open the dumper of the next chunk. The number is taken whether or not the file opens. -/
def openDumper (canOpen : UInt64 → Bool) (s : Chunker) : Except Ended Chunker :=
  if canOpen s.chunkNo then
    .ok { s with pcapDumper := some ⟨s.chunkNo, []⟩, chunkNo := s.chunkNo + 1 }
  else .error (.exited 1)

/-- Dump the packet and add its size to the size used. -/
def dump (p : Packet) (s : Chunker) : Except Ended Chunker :=
  match s.pcapDumper with
  | none => .error .crashed
  | some f => .ok { s with
      pcapDumper := some { f with records := f.records ++ [p.record] }
      chunkUsed := s.chunkUsed + (sizeofPcapPkthdr + p.header.caplen.toUInt64) }

end Chunker

/-- The packet handler of `chunkpcapfile`. -/
def chunkPacketHandler (canOpen : UInt64 → Bool) (chunkMaxSize : UInt64) (s : Chunker)
    (p : Packet) : Except Ended Chunker := do
  -- a packet that does not fit ends the chunk, which need not have been opened
  let s ← if s.chunkUsed + sizeofPcapPkthdr + p.header.caplen.toUInt64 > chunkMaxSize
    then s.closeDumper else pure s
  let s ← if s.pcapDumper = none then s.openDumper canOpen else pure s
  s.dump p

/-- `main` of `chunkpcapfile` after its arguments have been read: the chunk files it leaves. The
input is absent when the capture file cannot be opened. -/
def chunkpcapfileMain (canOpen : UInt64 → Bool) (chunkMaxSize : UInt64)
    (input : Option (List Packet)) : Except Ended (List ChunkFile) :=
  if chunkMaxSize < minChunkSize then .error (.exited 3)
  else match input with
    | none => .error (.exited 4)
    | some packets => do
      let s ← packets.foldlM (chunkPacketHandler canOpen chunkMaxSize) {}
      return s.files

/-! ## The accounting -/

/-- The size of a record in the program's own accounting. -/
def Record.size (r : Record) : ℕ := sizeofPcapPkthdr.toNat + r.header.caplen.toNat

theorem Packet.size_record (p : Packet) : p.record.size = 24 + p.header.caplen.toNat := rfl

/-- The size of a packet added to a size that it does not take past a maximum below `2 ^ 63`, or
takes past it for the first time, does not wrap. -/
theorem toNat_add_size {used chunkMaxSize : UInt64} (hmax : chunkMaxSize.toNat < 2 ^ 63)
    (hused : used.toNat ≤ chunkMaxSize.toNat) (p : Packet) :
    (used + sizeofPcapPkthdr + p.header.caplen.toUInt64).toNat
      = used.toNat + p.record.size := by
  have hcaplen := p.header.caplen.toNat_lt
  rw [Packet.size_record, UInt64.toNat_add, UInt64.toNat_add, UInt32.toNat_toUInt64,
    show sizeofPcapPkthdr.toNat = 24 from rfl]
  omega

/-! ## What the handler maintains -/

/-- After the packets `seen`, the files are a greedy cut of their records, numbered in the order
of opening, and the globals describe the file being written. -/
structure Chunker.Cuts (chunkMaxSize : UInt64) (seen : List Packet) (s : Chunker) : Prop where
  /-- The files cut the records of the packets greedily. -/
  cut : GreedyCut Record.size chunkMaxSize.toNat (seen.map Packet.record)
    (s.files.map ChunkFile.records)
  /-- The files are numbered from zero. -/
  numbers : s.files.map ChunkFile.chunkNo = (List.range s.files.length).map UInt64.ofNat
  /-- The next number is the number of files. -/
  next : s.chunkNo = UInt64.ofNat s.files.length
  /-- Before the first packet there is no file at all. -/
  fresh : s.pcapDumper = none → s.closed = [] ∧ s.chunkUsed = 0
  /-- The size used is that of the file being written. -/
  used : ∀ f ∈ s.pcapDumper, s.chunkUsed.toNat = blockWeight Record.size f.records

theorem Chunker.cuts_initial (chunkMaxSize : UInt64) : Chunker.Cuts chunkMaxSize [] {} :=
  ⟨GreedyCut.nil, rfl, rfl, fun _ ↦ ⟨rfl, rfl⟩, by simp⟩

theorem numbers_concat {files : List ChunkFile} {f : ChunkFile}
    (hnumbers : files.map ChunkFile.chunkNo = (List.range files.length).map UInt64.ofNat)
    (hf : f.chunkNo = UInt64.ofNat files.length) :
    (files ++ [f]).map ChunkFile.chunkNo
      = (List.range (files ++ [f]).length).map UInt64.ofNat := by
  rw [List.map_append, List.length_append, List.length_singleton, List.range_succ,
    List.map_append, hnumbers, List.map_singleton, List.map_singleton, hf]

variable {canOpen : UInt64 → Bool} {chunkMaxSize : UInt64} {seen : List Packet} {s : Chunker}
  {p : Packet}

theorem chunkPacketHandler_none (hdumper : s.pcapDumper = none)
    (hopen : canOpen s.chunkNo = true)
    (hroom : ¬ s.chunkUsed + sizeofPcapPkthdr + p.header.caplen.toUInt64 > chunkMaxSize) :
    chunkPacketHandler canOpen chunkMaxSize s p = .ok
      { pcapDumper := some ⟨s.chunkNo, [p.record]⟩
        chunkNo := s.chunkNo + 1
        chunkUsed := s.chunkUsed + (sizeofPcapPkthdr + p.header.caplen.toUInt64)
        closed := s.closed } := by
  rw [chunkPacketHandler, if_neg hroom, pure_bind]
  dsimp only
  rw [if_pos hdumper, Chunker.openDumper, if_pos hopen]
  rfl

theorem chunkPacketHandler_full {f : ChunkFile} (hdumper : s.pcapDumper = some f)
    (hopen : canOpen s.chunkNo = true)
    (hfull : s.chunkUsed + sizeofPcapPkthdr + p.header.caplen.toUInt64 > chunkMaxSize) :
    chunkPacketHandler canOpen chunkMaxSize s p = .ok
      { pcapDumper := some ⟨s.chunkNo, [p.record]⟩
        chunkNo := s.chunkNo + 1
        chunkUsed := 0 + (sizeofPcapPkthdr + p.header.caplen.toUInt64)
        closed := s.files } := by
  have hclose : s.closeDumper = .ok { s with
      pcapDumper := none, chunkUsed := 0, closed := s.closed ++ [f] } := by
    rw [Chunker.closeDumper, hdumper]
  rw [chunkPacketHandler, if_pos hfull, hclose, Chunker.files, hdumper, Option.toList_some]
  simp only [bind, Except.bind, if_true, Chunker.openDumper, hopen]
  rfl

theorem chunkPacketHandler_exits (hopen : canOpen s.chunkNo = false)
    (hneeded : s.pcapDumper = none ∧
        ¬ s.chunkUsed + sizeofPcapPkthdr + p.header.caplen.toUInt64 > chunkMaxSize ∨
      s.pcapDumper ≠ none ∧
        s.chunkUsed + sizeofPcapPkthdr + p.header.caplen.toUInt64 > chunkMaxSize) :
    chunkPacketHandler canOpen chunkMaxSize s p = .error (.exited 1) := by
  rcases hneeded with ⟨hdumper, hroom⟩ | ⟨hdumper, hfull⟩
  · rw [chunkPacketHandler, if_neg hroom, pure_bind]
    dsimp only
    rw [if_pos hdumper, Chunker.openDumper, if_neg (by rw [hopen]; exact Bool.false_ne_true)]
    rfl
  · obtain ⟨f, hf⟩ := Option.ne_none_iff_exists'.mp hdumper
    rw [chunkPacketHandler, if_pos hfull, Chunker.closeDumper, hf]
    simp only [bind, Except.bind, if_true, Chunker.openDumper, hopen, Bool.false_eq_true, if_false]

theorem chunkPacketHandler_room {f : ChunkFile} (hdumper : s.pcapDumper = some f)
    (hroom : ¬ s.chunkUsed + sizeofPcapPkthdr + p.header.caplen.toUInt64 > chunkMaxSize) :
    chunkPacketHandler canOpen chunkMaxSize s p = .ok
      { s with
        pcapDumper := some { f with records := f.records ++ [p.record] }
        chunkUsed := s.chunkUsed + (sizeofPcapPkthdr + p.header.caplen.toUInt64) } := by
  have hopened : s.pcapDumper ≠ none := hdumper ▸ Option.some_ne_none f
  rw [chunkPacketHandler, if_neg hroom, pure_bind]
  dsimp only
  rw [if_neg hopened, pure_bind, Chunker.dump, hdumper]

theorem Chunker.cuts_begin {files : List ChunkFile}
    (hcut : GreedyCut Record.size chunkMaxSize.toNat (seen.map Packet.record)
      (files.map ChunkFile.records))
    (hnumbers : files.map ChunkFile.chunkNo = (List.range files.length).map UInt64.ofNat)
    (hfit : p.record.size ≤ chunkMaxSize.toNat) (hmax : chunkMaxSize.toNat < 2 ^ 63)
    (hlast : ∀ f ∈ files.getLast?,
      chunkMaxSize.toNat < blockWeight Record.size f.records + p.record.size) :
    Chunker.Cuts chunkMaxSize (seen ++ [p])
      { pcapDumper := some ⟨UInt64.ofNat files.length, [p.record]⟩
        chunkNo := UInt64.ofNat files.length + 1
        chunkUsed := 0 + (sizeofPcapPkthdr + p.header.caplen.toUInt64)
        closed := files } := by
  refine ⟨?_, numbers_concat hnumbers rfl, ?_, by simp, ?_⟩
  · rw [Chunker.files, List.map_append, List.map_append, Option.toList_some, List.map_singleton,
      List.map_singleton]
    refine hcut.start hfit ?_
    intro b hb
    rw [List.getLast?_map] at hb
    obtain ⟨f, hf, rfl⟩ := Option.map_eq_some_iff.mp hb
    exact hlast f hf
  · rw [Chunker.files, Option.toList_some, List.length_append, List.length_singleton,
      UInt64.ofNat_add]
    rfl
  · intro f hf
    rw [← Option.some.inj hf, ← add_assoc, toNat_add_size hmax (Nat.zero_le _), UInt64.toNat_zero,
      Nat.zero_add, ← List.nil_append [p.record], blockWeight_concat, blockWeight_nil,
      Nat.zero_add]

theorem Chunker.Cuts.extend {f : ChunkFile} (h : s.Cuts chunkMaxSize seen)
    (hdumper : s.pcapDumper = some f) (hmax : chunkMaxSize.toNat < 2 ^ 63)
    (hspace : blockWeight Record.size f.records + p.record.size ≤ chunkMaxSize.toNat) :
    Chunker.Cuts chunkMaxSize (seen ++ [p])
      { s with
        pcapDumper := some { f with records := f.records ++ [p.record] }
        chunkUsed := s.chunkUsed + (sizeofPcapPkthdr + p.header.caplen.toUInt64) } := by
  obtain ⟨hcut, hnumbers, hnext, -, hused⟩ := h
  have hf : s.chunkUsed.toNat = blockWeight Record.size f.records := hused f hdumper
  rw [Chunker.files, hdumper, Option.toList_some] at hcut hnumbers hnext
  refine ⟨?_, ?_, ?_, fun hnone ↦ absurd hnone (Option.some_ne_none _), ?_⟩
  · rw [List.map_append, List.map_singleton] at hcut
    rw [Chunker.files, Option.toList_some, List.map_append, List.map_append, List.map_singleton,
      List.map_singleton]
    exact hcut.extend hspace
  · simpa [Chunker.files] using hnumbers
  · simpa [Chunker.files] using hnext
  · intro g hg
    have hle : s.chunkUsed.toNat ≤ chunkMaxSize.toNat := by omega
    rw [← Option.some.inj hg, ← add_assoc, toNat_add_size hmax hle, hf, blockWeight_concat]

/-- One packet: the handler keeps the cut, unless it exits because the next chunk does not open. -/
theorem Chunker.Cuts.step (h : s.Cuts chunkMaxSize seen) (hmax : chunkMaxSize.toNat < 2 ^ 63)
    (hfit : p.record.size ≤ chunkMaxSize.toNat) :
    (∃ s', chunkPacketHandler canOpen chunkMaxSize s p = .ok s' ∧
      s'.Cuts chunkMaxSize (seen ++ [p])) ∨
    canOpen s.chunkNo = false ∧
      chunkPacketHandler canOpen chunkMaxSize s p = .error (.exited 1) := by
  cases hdumper : s.pcapDumper with
  | none =>
    -- nothing is open only before the first packet, which fits an empty chunk
    obtain ⟨hclosed, hused⟩ := h.fresh hdumper
    have hroom : ¬ s.chunkUsed + sizeofPcapPkthdr + p.header.caplen.toUInt64 > chunkMaxSize := by
      rw [gt_iff_lt, UInt64.lt_iff_toNat_lt, hused, toNat_add_size hmax (Nat.zero_le _),
        UInt64.toNat_zero]
      omega
    have hfiles : s.files = s.closed := by
      rw [Chunker.files, hdumper, Option.toList_none, List.append_nil]
    cases hopen : canOpen s.chunkNo with
    | false => exact .inr ⟨rfl, chunkPacketHandler_exits hopen (.inl ⟨hdumper, hroom⟩)⟩
    | true =>
    refine .inl ⟨_, chunkPacketHandler_none hdumper hopen hroom, ?_⟩
    rw [h.next, hused, ← hfiles]
    refine Chunker.cuts_begin h.cut h.numbers hfit hmax ?_
    rw [hfiles, hclosed]
    simp
  | some f =>
    have hused : s.chunkUsed.toNat = blockWeight Record.size f.records := h.used f hdumper
    have hfiles : s.files = s.closed ++ [f] := by
      rw [Chunker.files, hdumper, Option.toList_some]
    have hle : s.chunkUsed.toNat ≤ chunkMaxSize.toNat := by
      rw [hused]
      refine h.cut.fits _ (List.mem_map_of_mem ?_)
      rw [hfiles]
      exact List.mem_append_right _ (List.mem_singleton_self f)
    by_cases hroom : s.chunkUsed + sizeofPcapPkthdr + p.header.caplen.toUInt64 > chunkMaxSize
    · have hfull : chunkMaxSize.toNat < blockWeight Record.size f.records + p.record.size := by
        rwa [gt_iff_lt, UInt64.lt_iff_toNat_lt, toNat_add_size hmax hle, hused] at hroom
      have hneeded : s.pcapDumper ≠ none := hdumper ▸ Option.some_ne_none f
      cases hopen : canOpen s.chunkNo with
      | false => exact .inr ⟨rfl, chunkPacketHandler_exits hopen (.inr ⟨hneeded, hroom⟩)⟩
      | true =>
      refine .inl ⟨_, chunkPacketHandler_full hdumper hopen hroom, ?_⟩
      rw [h.next]
      refine Chunker.cuts_begin h.cut h.numbers hfit hmax ?_
      intro g hg
      rw [hfiles, List.getLast?_concat, Option.mem_some_iff] at hg
      rwa [← hg]
    · have hspace : blockWeight Record.size f.records + p.record.size ≤ chunkMaxSize.toNat := by
        rwa [gt_iff_lt, UInt64.lt_iff_toNat_lt, toNat_add_size hmax hle, hused, not_lt] at hroom
      exact .inl ⟨_, chunkPacketHandler_room hdumper hroom, h.extend hdumper hmax hspace⟩

/-- A whole run of the handler keeps the cut, unless it exits because a chunk does not open. -/
theorem Chunker.Cuts.run (canOpen : UInt64 → Bool) (hmax : chunkMaxSize.toNat < 2 ^ 63)
    (packets : List Packet) (hfit : ∀ p ∈ packets, p.record.size ≤ chunkMaxSize.toNat)
    (h : s.Cuts chunkMaxSize seen) :
    (∃ s', packets.foldlM (chunkPacketHandler canOpen chunkMaxSize) s = .ok s' ∧
      s'.Cuts chunkMaxSize (seen ++ packets)) ∨
    (∃ n, canOpen n = false) ∧
      packets.foldlM (chunkPacketHandler canOpen chunkMaxSize) s = .error (.exited 1) := by
  induction packets generalizing seen s with
  | nil =>
    refine .inl ⟨s, rfl, ?_⟩
    rwa [List.append_nil]
  | cons p packets ih =>
    rw [List.foldlM_cons]
    rcases h.step hmax (hfit p List.mem_cons_self) with ⟨s₁, hs₁, hcuts₁⟩ | ⟨hclosed, hexit⟩
    · rw [hs₁]
      refine (ih (fun q hq ↦ hfit q (List.mem_cons_of_mem p hq)) hcuts₁).imp_left ?_
      rintro ⟨s₂, hs₂, hcuts₂⟩
      rw [List.append_assoc, List.singleton_append] at hcuts₂
      exact ⟨s₂, hs₂, hcuts₂⟩
    · rw [hexit]
      exact .inr ⟨⟨_, hclosed⟩, rfl⟩

/-- **Chunking is a partition of the input.** The chunk files of a run, in the order in which they
are opened, are numbered from zero and cut the input greedily: they hold the records of the input
in input order, none is empty, and each but the last had no room for the first packet of the
next. -/
theorem chunkpcapfileMain_greedyCut (canOpen : UInt64 → Bool) (chunkMaxSize : UInt64)
    (packets : List Packet) (hopen : ∀ n, canOpen n = true) (hmin : minChunkSize ≤ chunkMaxSize)
    (hmax : chunkMaxSize.toNat < 2 ^ 63)
    (hfit : ∀ p ∈ packets, sizeofPcapPkthdr.toNat + p.header.caplen.toNat ≤ chunkMaxSize.toNat) :
    ∃ files, chunkpcapfileMain canOpen chunkMaxSize (some packets) = .ok files ∧
      GreedyCut Record.size chunkMaxSize.toNat (packets.map Packet.record)
        (files.map ChunkFile.records) ∧
      files.map ChunkFile.chunkNo = (List.range files.length).map UInt64.ofNat := by
  rcases (Chunker.cuts_initial chunkMaxSize).run canOpen hmax packets hfit with
    ⟨s, hs, hcuts⟩ | ⟨⟨n, hclosed⟩, -⟩
  · refine ⟨s.files, ?_, hcuts.cut, hcuts.numbers⟩
    rw [chunkpcapfileMain, if_neg (UInt64.not_lt.mpr hmin), hs]
    rfl
  · exact absurd ((hopen n).symm.trans hclosed) (by decide)

/-- A packet of the largest length that libpcap delivers: three of them fit a chunk of the smallest
size, and four do not. -/
def jumboPacket : Packet := ⟨⟨0, 0, 0x40000, 0x40000⟩, fun _ ↦ 0⟩

/-- Six such packets are cut into chunks of the smallest size. -/
theorem chunkpcapfileMain_greedyCut_jumbo :
    ∃ files, chunkpcapfileMain (fun _ ↦ true) minChunkSize (some (List.replicate 6 jumboPacket))
        = .ok files ∧
      GreedyCut Record.size minChunkSize.toNat ((List.replicate 6 jumboPacket).map Packet.record)
        (files.map ChunkFile.records) ∧
      files.map ChunkFile.chunkNo = (List.range files.length).map UInt64.ofNat := by
  refine chunkpcapfileMain_greedyCut _ _ (List.replicate 6 jumboPacket) (fun _ ↦ rfl)
    (UInt64.le_refl _) (by decide) ?_
  intro q hq
  rw [List.eq_of_mem_replicate hq]
  decide

/-! ## The size of the files -/

/-- The largest captured length that libpcap delivers. -/
def maxSnaplen : ℕ := 262144

/-- The size of a record in the pcap file format: a header of 16 bytes and the captured bytes. -/
def Record.fileSize (r : Record) : ℕ := 16 + r.header.caplen.toNat

/-- The size of a chunk file in the pcap file format: a file header of 24 bytes and the records. -/
def ChunkFile.size (f : ChunkFile) : ℕ := 24 + blockWeight Record.fileSize f.records

/-- The program counts eight bytes too many for each record. -/
theorem blockWeight_size (rs : List Record) :
    blockWeight Record.size rs = blockWeight Record.fileSize rs + 8 * rs.length := by
  induction rs with
  | nil => rfl
  | cons r rs ih =>
    have hr : r.size = r.fileSize + 8 := by
      rw [Record.size, Record.fileSize, show sizeofPcapPkthdr.toNat = 24 from rfl]
      omega
    unfold blockWeight at ih ⊢
    rw [List.map_cons, List.sum_cons, List.map_cons, List.sum_cons, ih, hr, List.length_cons]
    omega

/-- The eight bytes too many of three records make up for the file header, which the program does
not count; one or two records of the largest length fit a chunk of the smallest size. -/
theorem size_le_of_blockWeight_le {f : ChunkFile} {capacity : ℕ} (hne : f.records ≠ [])
    (hcaplen : ∀ r ∈ f.records, r.header.caplen.toNat ≤ maxSnaplen)
    (hmin : minChunkSize.toNat ≤ capacity)
    (hweight : blockWeight Record.size f.records ≤ capacity) : f.size ≤ capacity := by
  have hmin' : 0x100000 ≤ capacity := hmin
  have hfile := blockWeight_size f.records
  rw [ChunkFile.size]
  match hrecords : f.records with
  | [] => exact absurd hrecords hne
  | [r] =>
    have hr := hcaplen r (by simp [hrecords])
    rw [maxSnaplen] at hr
    rw [blockWeight, List.map_singleton, List.sum_singleton, Record.fileSize]
    omega
  | [r, r'] =>
    have hr := hcaplen r (by simp [hrecords])
    have hr' := hcaplen r' (by simp [hrecords])
    rw [maxSnaplen] at hr hr'
    rw [blockWeight, List.map_cons, List.sum_cons, List.map_singleton, List.sum_singleton,
      Record.fileSize, Record.fileSize]
    omega
  | r :: r' :: r'' :: rs =>
    rw [hrecords, List.length_cons, List.length_cons, List.length_cons] at hfile
    rw [hrecords] at hweight
    omega

theorem Chunker.Cuts.size_le (h : s.Cuts chunkMaxSize seen) (hmin : minChunkSize ≤ chunkMaxSize)
    (hcaplen : ∀ p ∈ seen, p.header.caplen.toNat ≤ maxSnaplen) :
    ∀ f ∈ s.files, f.size ≤ chunkMaxSize.toNat := by
  intro f hf
  have hmem : f.records ∈ s.files.map ChunkFile.records := List.mem_map_of_mem hf
  refine size_le_of_blockWeight_le (h.cut.nonempty _ hmem) ?_ (UInt64.le_iff_toNat_le.mp hmin)
    (h.cut.fits _ hmem)
  intro r hr
  have hseen : r ∈ seen.map Packet.record := by
    rw [← h.cut.flatten]
    exact List.mem_flatten.mpr ⟨_, hmem, hr⟩
  obtain ⟨p, hp, rfl⟩ := List.mem_map.mp hseen
  exact hcaplen p hp

/-- **Chunk files respect the size limit.** For packets of at most the largest captured length and
every maximum that the program accepts, each file that exists while the packets are handled or at
the end is at most `chunk_max_size` bytes long in the pcap file format, and no dumper is closed or
written to while none is open. -/
theorem chunkFiles_within_limit (canOpen : UInt64 → Bool) (chunkMaxSize : UInt64)
    (packets : List Packet) (hmin : minChunkSize ≤ chunkMaxSize)
    (hmax : chunkMaxSize.toNat < 2 ^ 63)
    (hcaplen : ∀ p ∈ packets, p.header.caplen.toNat ≤ maxSnaplen) :
    (∀ seen s, seen <+: packets →
      seen.foldlM (chunkPacketHandler canOpen chunkMaxSize) {} = .ok s →
        ∀ f ∈ s.files, f.size ≤ chunkMaxSize.toNat) ∧
    (∀ files, chunkpcapfileMain canOpen chunkMaxSize (some packets) = .ok files →
      ∀ f ∈ files, f.size ≤ chunkMaxSize.toNat) ∧
    chunkpcapfileMain canOpen chunkMaxSize (some packets) ≠ .error .crashed := by
  have hmin' : 0x100000 ≤ chunkMaxSize.toNat := UInt64.le_iff_toNat_le.mp hmin
  -- One record fits into a file of the smallest size the program accepts.
  have hfit : ∀ p ∈ packets, p.record.size ≤ chunkMaxSize.toNat := by
    intro p hp
    have hp' := hcaplen p hp
    rw [maxSnaplen] at hp'
    rw [Packet.size_record]
    omega
  have hseen : ∀ seen s, seen <+: packets →
      seen.foldlM (chunkPacketHandler canOpen chunkMaxSize) {} = .ok s →
        ∀ f ∈ s.files, f.size ≤ chunkMaxSize.toNat := by
    intro seen s hinit hs
    rcases (Chunker.cuts_initial chunkMaxSize).run canOpen hmax seen
      (fun p hp ↦ hfit p (hinit.subset hp)) with ⟨s', hs', hcuts⟩ | ⟨-, hexit⟩
    · obtain rfl : s' = s := Except.ok.inj (hs'.symm.trans hs)
      exact hcuts.size_le hmin fun p hp ↦ hcaplen p (hinit.subset hp)
    · exact absurd (hexit.symm.trans hs) nofun
  refine ⟨hseen, ?_, ?_⟩
  · intro files hfiles
    rw [chunkpcapfileMain, if_neg (UInt64.not_lt.mpr hmin)] at hfiles
    cases hs : packets.foldlM (chunkPacketHandler canOpen chunkMaxSize) {} with
    | error e =>
      rw [hs] at hfiles
      exact absurd hfiles nofun
    | ok s =>
      rw [hs] at hfiles
      rw [← Except.ok.inj hfiles]
      exact hseen packets s (List.prefix_refl packets) hs
  · rw [chunkpcapfileMain, if_neg (UInt64.not_lt.mpr hmin)]
    rcases (Chunker.cuts_initial chunkMaxSize).run canOpen hmax packets hfit with
      ⟨s, hs, -⟩ | ⟨-, hexit⟩
    · rw [hs]
      exact nofun
    · rw [hexit]
      exact nofun

/-- A packet of the largest captured length. -/
def largestPacket : Packet := ⟨⟨0, 0, 262144, 262144⟩, fun _ ↦ 0⟩

/-- Five of the largest packets are cut into files of at most the smallest chunk size. -/
theorem chunkFiles_within_limit_largest :
    chunkpcapfileMain (fun _ ↦ true) minChunkSize (some (List.replicate 5 largestPacket))
      ≠ .error .crashed := by
  refine (chunkFiles_within_limit (fun _ ↦ true) minChunkSize (List.replicate 5 largestPacket)
    (UInt64.le_refl _) (by decide) ?_).2.2
  intro p hp
  rw [List.eq_of_mem_replicate hp]
  decide

/-! ## The number of the files -/

theorem greedyCut_of_chunkpcapfileMain {files : List ChunkFile} {packets : List Packet}
    (hmin : minChunkSize ≤ chunkMaxSize) (hmax : chunkMaxSize.toNat < 2 ^ 63)
    (hfit : ∀ p ∈ packets, p.record.size ≤ chunkMaxSize.toNat)
    (hfiles : chunkpcapfileMain canOpen chunkMaxSize (some packets) = .ok files) :
    GreedyCut Record.size chunkMaxSize.toNat (packets.map Packet.record)
        (files.map ChunkFile.records) ∧
      files.map ChunkFile.chunkNo = (List.range files.length).map UInt64.ofNat := by
  rw [chunkpcapfileMain, if_neg (UInt64.not_lt.mpr hmin)] at hfiles
  rcases (Chunker.cuts_initial chunkMaxSize).run canOpen hmax packets hfit with
    ⟨s, hs, hcuts⟩ | ⟨-, hexit⟩
  · rw [hs] at hfiles
    obtain rfl : s.files = files := Except.ok.inj hfiles
    exact ⟨hcuts.cut, hcuts.numbers⟩
  · rw [hexit] at hfiles
    exact absurd hfiles nofun

/-- **Chunking writes the fewest files.** A run that comes to its end leaves no more chunk files
than there are blocks in any way of cutting the records of the input into blocks that the program
would take to fit a chunk; a larger maximum therefore never leaves more files, and cutting a chunk
file again leaves that file alone. -/
theorem chunkpcapfile_fewest (canOpen : UInt64 → Bool) (chunkMaxSize : UInt64)
    (packets : List Packet) (hmin : minChunkSize ≤ chunkMaxSize)
    (hmax : chunkMaxSize.toNat < 2 ^ 63)
    (hfit : ∀ p ∈ packets, p.record.size ≤ chunkMaxSize.toNat) (files : List ChunkFile)
    (hfiles : chunkpcapfileMain canOpen chunkMaxSize (some packets) = .ok files) :
    (∀ cut : List (List Record), cut.flatten = packets.map Packet.record →
      (∀ b ∈ cut, blockWeight Record.size b ≤ chunkMaxSize.toNat) → files.length ≤ cut.length) ∧
    (∀ (canOpen' : UInt64 → Bool) (chunkMaxSize' : UInt64) (files' : List ChunkFile),
      chunkMaxSize ≤ chunkMaxSize' → chunkMaxSize'.toNat < 2 ^ 63 →
      chunkpcapfileMain canOpen' chunkMaxSize' (some packets) = .ok files' →
      files'.length ≤ files.length) ∧
    ∀ f ∈ files, ∀ (canOpen' : UInt64 → Bool) (chunk : List Packet) (files' : List ChunkFile),
      chunk.map Packet.record = f.records →
      chunkpcapfileMain canOpen' chunkMaxSize (some chunk) = .ok files' →
      files' = [⟨0, f.records⟩] := by
  obtain ⟨hcut, -⟩ := greedyCut_of_chunkpcapfileMain hmin hmax hfit hfiles
  refine ⟨fun cut hflatten hfits ↦ ?_, fun canOpen' chunkMaxSize' files' hle hmax' hfiles' ↦ ?_,
    fun f hf canOpen' chunk files' hchunk hfiles' ↦ ?_⟩
  · have hlength := hcut.length_le hflatten hfits
    rwa [List.length_map] at hlength
  · have hle' : chunkMaxSize.toNat ≤ chunkMaxSize'.toNat := UInt64.le_iff_toNat_le.mp hle
    obtain ⟨hcut', -⟩ := greedyCut_of_chunkpcapfileMain (UInt64.le_trans hmin hle) hmax'
      (fun p hp ↦ (hfit p hp).trans hle') hfiles'
    have hlength := hcut'.length_le hcut.flatten fun b hb ↦ (hcut.fits b hb).trans hle'
    rwa [List.length_map, List.length_map] at hlength
  · have hmem : f.records ∈ files.map ChunkFile.records := List.mem_map_of_mem hf
    have hfit' : ∀ p ∈ chunk, p.record.size ≤ chunkMaxSize.toNat := by
      intro p hp
      have hp' : p.record ∈ packets.map Packet.record := by
        rw [← hcut.flatten]
        exact List.mem_flatten.mpr ⟨_, hmem, hchunk ▸ List.mem_map_of_mem hp⟩
      obtain ⟨q, hq, heq⟩ := List.mem_map.mp hp'
      rw [← heq]
      exact hfit q hq
    obtain ⟨hcut', hnumbers⟩ := greedyCut_of_chunkpcapfileMain hmin hmax hfit' hfiles'
    rw [hchunk] at hcut'
    have hone := hcut'.eq_singleton (hcut.nonempty _ hmem) (hcut.fits _ hmem)
    obtain ⟨g, rfl, hg⟩ := List.map_eq_singleton_iff.mp hone
    obtain ⟨n, records⟩ := g
    obtain rfl : records = f.records := hg
    obtain rfl : n = 0 := List.head_eq_of_cons_eq hnumbers
    rfl

/-- Six packets that do not fit one chunk of the smallest size are cut again with a maximum twice as
large. -/
theorem chunkpcapfile_fewest_jumbo :
    ∃ files, chunkpcapfileMain (fun _ ↦ true) minChunkSize (some (List.replicate 6 jumboPacket))
        = .ok files ∧
      ∀ files', chunkpcapfileMain (fun _ ↦ true) 0x200000 (some (List.replicate 6 jumboPacket))
        = .ok files' → files'.length ≤ files.length := by
  have hfit : ∀ p ∈ List.replicate 6 jumboPacket, p.record.size ≤ minChunkSize.toNat := by
    intro p hp
    rw [List.eq_of_mem_replicate hp]
    decide
  rcases (Chunker.cuts_initial minChunkSize).run (fun _ ↦ true) (by decide) _ hfit with
    ⟨s, hs, -⟩ | ⟨⟨n, hclosed⟩, -⟩
  · have hmain : chunkpcapfileMain (fun _ ↦ true) minChunkSize
        (some (List.replicate 6 jumboPacket)) = .ok s.files := by
      rw [chunkpcapfileMain, if_neg (UInt64.not_lt.mpr (UInt64.le_refl _)), hs]
      rfl
    exact ⟨s.files, hmain, fun files' ↦ (chunkpcapfile_fewest _ minChunkSize _ (UInt64.le_refl _)
      (by decide) hfit _ hmain).2.1 _ _ files' (by decide) (by decide)⟩
  · cases hclosed

end DistributorMerger
