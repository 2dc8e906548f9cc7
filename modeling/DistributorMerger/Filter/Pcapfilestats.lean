import DistributorMerger.Filter.Chunkpcapfile

/-!
# Statistics of a capture file

`pcapfilestats` counts the packets and the bytes on the wire of a capture file and keeps the time
stamps of the first and of the last packet. It prints a line for every millionth packet and one at
the end. The counters are `unsigned long long`; that there has been no packet yet is read off the
first of them.

How `gmtime` and `strftime` write a time is left to a parameter.
-/

namespace DistributorMerger

namespace Pcapfilestats

/-- `struct timeval`. -/
structure Timeval where
  /-- `tv_sec`. -/
  tvSec : ℤ := 0
  /-- `tv_usec`. -/
  tvUsec : ℤ := 0
  deriving DecidableEq, Repr

/-- The time stamp of a packet. -/
def timestamp (h : PcapPkthdr) : Timeval := ⟨h.tvSec, h.tvUsec⟩

/-- The variables that hold the statistics. -/
structure Stats where
  /-- `packet_count`. -/
  packetCount : UInt64 := 0
  /-- `byte_count`. -/
  byteCount : UInt64 := 0
  /-- `first_timestamp`. -/
  firstTimestamp : Timeval := {}
  /-- `last_timestamp`. -/
  lastTimestamp : Timeval := {}
  deriving DecidableEq, Repr

/-- `%06lu`. -/
def sixDigits (n : ℤ) : String :=
  let digits := toString (n % 2 ^ 64)
  String.ofList (List.replicate (6 - digits.length) '0') ++ digits

/-- `print_pcap_stats`: the line that is printed. -/
def printPcapStats (strftime : ℤ → String) (fileName : String) (s : Stats) : String :=
  fileName ++ ",pkts:" ++ toString s.packetCount ++ ",bytes:" ++ toString s.byteCount
    ++ ",start:" ++ strftime s.firstTimestamp.tvSec ++ "." ++ sixDigits s.firstTimestamp.tvUsec
    ++ ",end:" ++ strftime s.lastTimestamp.tvSec ++ "." ++ sixDigits s.lastTimestamp.tvUsec ++ "\n"

/-- What the packet handler does to the statistics. -/
def Stats.add (s : Stats) (h : PcapPkthdr) : Stats where
  packetCount := s.packetCount + 1
  byteCount := s.byteCount + h.len.toUInt64
  -- this is the first packet
  firstTimestamp := if s.packetCount = 0 then timestamp h else s.firstTimestamp
  lastTimestamp := timestamp h

/-- The packet handler of `pcapfilestats`, on the statistics and those that have been printed. -/
def packetHandler (s : Stats × List Stats) (p : Packet) : Stats × List Stats :=
  let stats := s.1.add p.header
  (stats, if stats.packetCount % 1000000 = 0 then s.2 ++ [stats] else s.2)

/-- `main` of `pcapfilestats` on a file that opens: the statistics that are printed. -/
def pcapfilestatsMain (packets : List Packet) : List Stats :=
  let s := packets.foldl packetHandler ({}, [])
  s.2 ++ [s.1]

/-- The lines of a run. -/
def pcapfilestats (strftime : ℤ → String) (fileName : String) (packets : List Packet) :
    List String := (pcapfilestatsMain packets).map (printPcapStats strftime fileName)

/-! ## What the statistics are -/

/-- The statistics of some packet headers. -/
def summary (headers : List PcapPkthdr) : Stats where
  packetCount := UInt64.ofNat headers.length
  byteCount := (headers.map (·.len.toUInt64)).sum
  firstTimestamp := (headers.head?.map timestamp).getD {}
  lastTimestamp := (headers.getLast?.map timestamp).getD {}

variable {headers : List PcapPkthdr}

theorem summary_packetCount_eq_zero (h : headers.length < 2 ^ 64) :
    (summary headers).packetCount = 0 ↔ headers = [] := by
  rw [summary, ← UInt64.toNat_inj, UInt64.toNat_ofNat', UInt64.toNat_zero, Nat.mod_eq_of_lt h,
    List.length_eq_zero_iff]

theorem summary_concat (h : headers.length < 2 ^ 64) (header : PcapPkthdr) :
    summary (headers ++ [header]) = (summary headers).add header := by
  have hlast : (headers ++ [header]).getLast? = some header := List.getLast?_concat
  rw [Stats.add]
  simp only [summary_packetCount_eq_zero h]
  cases headers with
  | nil => simp [summary]
  | cons first headers =>
    rw [summary, hlast]
    simp [summary, add_assoc]

/-- What the handler holds and has printed after some packets. -/
theorem foldl_packetHandler (packets : List Packet) (h : packets.length < 2 ^ 64) :
    packets.foldl packetHandler ({}, [])
      = (summary (packets.map Packet.header), (List.range (packets.length / 1000000)).map fun k ↦
          summary ((packets.map Packet.header).take ((k + 1) * 1000000))) := by
  induction packets using List.reverseRecOn with
  | nil => rfl
  | append_singleton packets p ih =>
    rw [List.length_append, List.length_singleton] at h ⊢
    have hlength : (packets.map Packet.header).length < 2 ^ 64 := by
      rw [List.length_map]
      omega
    -- the lines that have been printed are about packets seen so far
    have hsame : ∀ k < packets.length / 1000000,
        ((packets ++ [p]).map Packet.header).take ((k + 1) * 1000000)
          = (packets.map Packet.header).take ((k + 1) * 1000000) := by
      intro k hk
      rw [List.map_append, List.take_append_of_le_length]
      rw [List.length_map]
      omega
    have hcount : (summary ((packets ++ [p]).map Packet.header)).packetCount % 1000000 = 0 ↔
        1000000 ∣ packets.length + 1 := by
      rw [summary, ← UInt64.toNat_inj, UInt64.toNat_mod, UInt64.toNat_ofNat', List.length_map,
        List.length_append, List.length_singleton, Nat.mod_eq_of_lt h, Nat.dvd_iff_mod_eq_zero]
      rfl
    have hlines : (List.range (packets.length / 1000000)).map (fun k ↦
          summary (((packets ++ [p]).map Packet.header).take ((k + 1) * 1000000)))
        = (List.range (packets.length / 1000000)).map fun k ↦
          summary ((packets.map Packet.header).take ((k + 1) * 1000000)) :=
      List.map_congr_left fun k hk ↦ by rw [hsame k (List.mem_range.mp hk)]
    have hadd : (summary (packets.map Packet.header)).add p.header
        = summary ((packets ++ [p]).map Packet.header) := by
      rw [List.map_append, List.map_singleton, summary_concat hlength]
    rw [List.foldl_append, ih (by omega), List.foldl_cons, List.foldl_nil, packetHandler]
    dsimp only
    rw [hadd]
    refine Prod.ext rfl ?_
    dsimp only
    rw [Nat.succ_div, ← hlines]
    by_cases hdvd : 1000000 ∣ packets.length + 1
    · have hall : ((packets ++ [p]).map Packet.header).take
          ((packets.length / 1000000 + 1) * 1000000) = (packets ++ [p]).map Packet.header := by
        refine List.take_of_length_le ?_
        rw [List.length_map, List.length_append, List.length_singleton]
        omega
      rw [if_pos (hcount.mpr hdvd), if_pos hdvd]
      generalize (packets ++ [p]).map Packet.header = headers at hall ⊢
      rw [List.range_succ, List.map_append, List.map_singleton, hall]
    · rw [if_neg (mt hcount.mp hdvd), if_neg hdvd, Nat.add_zero]

/-- **The lines are about the packets in front of them.** A run prints a line for each million of
packets, with the statistics of all packets up to there, and then one with those of all packets. -/
theorem pcapfilestats_lines (strftime : ℤ → String) (fileName : String) (packets : List Packet)
    (h : packets.length < 2 ^ 64) :
    pcapfilestats strftime fileName packets
      = ((List.range (packets.length / 1000000)).map fun k ↦ printPcapStats strftime fileName
          (summary ((packets.map Packet.header).take ((k + 1) * 1000000))))
        ++ [printPcapStats strftime fileName (summary (packets.map Packet.header))] := by
  rw [pcapfilestats, pcapfilestatsMain, foldl_packetHandler packets h, List.map_append,
    List.map_map, List.map_singleton]
  rfl

/-- No line but the last one is printed for a file of six packets. -/
theorem pcapfilestats_lines_jumbo :
    pcapfilestats toString "in.pcap" (List.replicate 6 jumboPacket)
      = [printPcapStats toString "in.pcap" (summary (List.replicate 6 jumboPacket.header))] :=
  pcapfilestats_lines toString "in.pcap" (List.replicate 6 jumboPacket) (by decide)

/-! ## The statistics of several files -/

/-- The statistics of one file followed by another. -/
def Stats.join (s t : Stats) : Stats :=
  if t.packetCount = 0 then s
  else if s.packetCount = 0 then t
  else
    { packetCount := s.packetCount + t.packetCount
      byteCount := s.byteCount + t.byteCount
      firstTimestamp := s.firstTimestamp
      lastTimestamp := t.lastTimestamp }

theorem summary_append {headers' : List PcapPkthdr}
    (h : (headers ++ headers').length < 2 ^ 64) :
    summary (headers ++ headers') = (summary headers).join (summary headers') := by
  rw [List.length_append] at h
  rw [Stats.join]
  simp only [summary_packetCount_eq_zero (show headers.length < 2 ^ 64 by omega),
    summary_packetCount_eq_zero (show headers'.length < 2 ^ 64 by omega)]
  by_cases hnil' : headers' = []
  · rw [if_pos hnil', hnil', List.append_nil]
  by_cases hnil : headers = []
  · rw [if_neg hnil', if_pos hnil, hnil, List.nil_append]
  · rw [if_neg hnil', if_neg hnil, summary, List.head?_append_of_ne_nil _ hnil,
      List.getLast?_append_of_ne_nil _ hnil', List.length_append, UInt64.ofNat_add, List.map_append,
      List.sum_append]
    rfl

/-- The statistics of several files, one behind the other. -/
theorem summary_flatten (files : List (List PcapPkthdr)) (h : files.flatten.length < 2 ^ 64) :
    summary files.flatten = (files.map summary).foldl Stats.join {} := by
  induction files using List.reverseRecOn with
  | nil => rfl
  | append_singleton files file ih =>
    rw [List.flatten_append, List.flatten_singleton] at h ⊢
    have hinit : files.flatten.length < 2 ^ 64 := by
      rw [List.length_append] at h
      omega
    rw [summary_append h, ih hinit, List.map_append, List.foldl_append]
    rfl

/-- The last statistics that a run prints. -/
def finalStats (packets : List Packet) : Stats := (packets.foldl packetHandler ({}, [])).1

/-- **The statistics of the chunk files add up to those of the input.** When `chunkpcapfile` has cut
a capture file into chunks, the statistics that `pcapfilestats` prints last for the chunk files, put
together in the order of the chunks, are those that it prints last for the input. -/
theorem pcapfilestats_of_chunks (canOpen : UInt64 → Bool) (chunkMaxSize : UInt64)
    (packets : List Packet) (hmin : minChunkSize ≤ chunkMaxSize)
    (hmax : chunkMaxSize.toNat < 2 ^ 63)
    (hfit : ∀ p ∈ packets, p.record.size ≤ chunkMaxSize.toNat) (hlength : packets.length < 2 ^ 64)
    (files : List ChunkFile)
    (hfiles : chunkpcapfileMain canOpen chunkMaxSize (some packets) = .ok files)
    (chunks : List (List Packet))
    (hchunks : chunks.map (·.map Packet.record) = files.map ChunkFile.records) :
    finalStats packets = (chunks.map finalStats).foldl Stats.join {} := by
  have hcut := (greedyCut_of_chunkpcapfileMain hmin hmax hfit hfiles).1
  -- the headers of the chunks are those of the input
  have hheaders : (chunks.map (·.map Packet.header)).flatten = packets.map Packet.header := by
    have hflatten := hcut.flatten
    rw [← hchunks] at hflatten
    have hmapped := congrArg (List.map Record.header) hflatten
    rw [List.map_flatten, List.map_map, List.map_map] at hmapped
    rw [← show packets.map (Record.header ∘ Packet.record) = packets.map Packet.header from rfl,
      ← hmapped]
    refine congrArg List.flatten (List.map_congr_left fun chunk _ ↦ ?_)
    rw [Function.comp_apply, List.map_map]
    rfl
  have hall : (chunks.map (·.map Packet.header)).flatten.length < 2 ^ 64 := by
    rw [hheaders, List.length_map]
    exact hlength
  have hchunk : ∀ chunk ∈ chunks, finalStats chunk = summary (chunk.map Packet.header) := by
    intro chunk hmem
    have hle : (chunk.map Packet.header).length
        ≤ (chunks.map (·.map Packet.header)).flatten.length := by
      refine List.Sublist.length_le (List.sublist_flatten_of_mem ?_)
      exact List.mem_map_of_mem hmem
    rw [List.length_map] at hle
    rw [finalStats, foldl_packetHandler chunk (by omega)]
  rw [finalStats, foldl_packetHandler packets hlength, ← hheaders, summary_flatten _ hall,
    List.map_map]
  exact congrArg _ (List.map_congr_left fun chunk hmem ↦ (hchunk chunk hmem).symm)

/-- Six packets of which three fit one chunk of the smallest size. -/
theorem pcapfilestats_of_chunks_jumbo :
    finalStats (List.replicate 6 jumboPacket)
      = [finalStats (List.replicate 3 jumboPacket),
          finalStats (List.replicate 3 jumboPacket)].foldl Stats.join {} := by
  have hfiles : chunkpcapfileMain (fun _ ↦ true) minChunkSize
      (some (List.replicate 6 jumboPacket)) = .ok [⟨0, List.replicate 3 jumboPacket.record⟩,
        ⟨1, List.replicate 3 jumboPacket.record⟩] := rfl
  refine pcapfilestats_of_chunks _ minChunkSize _ (UInt64.le_refl _) (by decide) (fun p hp ↦ ?_)
    (by decide) _ hfiles [List.replicate 3 jumboPacket, List.replicate 3 jumboPacket] rfl
  rw [List.eq_of_mem_replicate hp]
  decide

end Pcapfilestats

end DistributorMerger
