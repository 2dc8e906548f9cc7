import DistributorMerger.Bytes.Memory

/-!
# Captured packets and dump files

A packet reaches the program as a `pcap_pkthdr` and a pointer to its bytes. `caplen` counts the
captured bytes and `len` the bytes on the wire; both are `bpf_u_int32`, so their arithmetic wraps.

`pcap_dump` makes two writes to its stream, the packet header and then `caplen` bytes of data. The
two writes are kept apart here as *chunks*: whether a header is followed by its own bytes is a
property of the locks around `pcap_dump`, not something the stream gives for free.
-/

namespace DistributorMerger

/-- `struct pcap_pkthdr`: the time stamp, the captured length and the original length. -/
structure PcapPkthdr where
  /-- `ts.tv_sec`. -/
  tvSec : ℤ
  /-- `ts.tv_usec`. -/
  tvUsec : ℤ
  /-- The number of captured bytes. -/
  caplen : UInt32
  /-- The length of the packet on the wire. -/
  len : UInt32
  deriving DecidableEq, Repr

/-- A captured packet as a packet handler receives it. -/
structure Packet where
  /-- The header that `pcap_loop` passes. -/
  header : PcapPkthdr
  /-- The memory at the data pointer that `pcap_loop` passes. -/
  data : Memory

/-- A record of a dump file: a packet header followed by its captured bytes. -/
structure Record where
  /-- The packet header written. -/
  header : PcapPkthdr
  /-- The bytes written after it. -/
  bytes : List UInt8
  deriving DecidableEq, Repr

/-- What one `fwrite` of `pcap_dump` adds to the stream. -/
inductive Chunk
  /-- The packet header. -/
  | header (h : PcapPkthdr)
  /-- The captured bytes. -/
  | bytes (b : List UInt8)
  deriving DecidableEq, Repr

/-- The record that a complete `pcap_dump` of a header and a data pointer leaves behind. -/
def dumpRecord (h : PcapPkthdr) (data : Memory) : Record := ⟨h, data.bytes h.caplen.toNat⟩

/-- The record of a packet that is dumped as it was received. -/
def Packet.record (p : Packet) : Record := dumpRecord p.header p.data

/-- The chunks of one complete record. -/
def Record.chunks (r : Record) : List Chunk := [.header r.header, .bytes r.bytes]

/-- The stream of a list of complete records. -/
def chunksOf (rs : List Record) : List Chunk := rs.flatMap Record.chunks

@[simp] theorem chunksOf_nil : chunksOf [] = [] := rfl

@[simp] theorem chunksOf_append (rs rs' : List Record) :
    chunksOf (rs ++ rs') = chunksOf rs ++ chunksOf rs' := by
  rw [chunksOf, chunksOf, chunksOf, List.flatMap_append]

theorem chunksOf_concat (rs : List Record) (r : Record) :
    chunksOf (rs ++ [r]) = chunksOf rs ++ [.header r.header, .bytes r.bytes] := by
  rw [chunksOf_append]
  rfl

theorem chunksOf_injective : Function.Injective chunksOf := by
  intro rs
  induction rs with
  | nil =>
    intro rs' h
    cases rs' with
    | nil => rfl
    | cons r rs' => simp [chunksOf, Record.chunks] at h
  | cons r rs ih =>
    intro rs' h
    cases rs' with
    | nil => simp [chunksOf, Record.chunks] at h
    | cons r' rs' =>
      obtain ⟨h₁, b₁⟩ := r
      obtain ⟨h₂, b₂⟩ := r'
      simp only [chunksOf, Record.chunks, List.flatMap_cons, List.cons_append, List.nil_append,
        List.cons.injEq, Chunk.header.injEq, Chunk.bytes.injEq] at h
      obtain ⟨hh, hb, ht⟩ := h
      rw [hh, hb, ih ht]

end DistributorMerger
