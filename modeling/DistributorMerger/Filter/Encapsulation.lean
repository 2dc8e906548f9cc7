import Mathlib
import DistributorMerger.Pcap.UntunnelMeaning
import DistributorMerger.Filter.Pipelines

/-!
# Tunnels and passes of `gtpuntunnel`

A tunnel puts an IP, a UDP and a GTP header in front of an IP packet, and the Ethernet header stays
where it is. What `gtpuntunnel` does to a frame is the inverse of that: whatever the three headers
are, as long as they are those of a G-PDU without extension, a pass takes them off and leaves the
frame that there was before. Tunnels may carry tunnels; each pass takes off the outermost one, and
further passes leave alone what has no tunnel left.

Between the passes the frames are in a file, so the memory behind a frame is another one each time.
-/

namespace DistributorMerger

/-! ## Headers -/

/-- An Ethernet header, with or without a tag, of a frame that carries IPv4. -/
structure EtherHeader where
  /-- The bytes. -/
  bytes : List UInt8
  /-- The header is as long as its tag says. -/
  length_eq : bytes.length = etherLength (Memory.ofList bytes)
  /-- The payload is IPv4. -/
  etherType_eq : frameEtherType (Memory.ofList bytes) = etherTypeIp

/-- The headers of a tunnel. -/
structure TunnelHeaders where
  /-- The outer IP header, with its options. -/
  ip : List UInt8
  /-- The UDP header. -/
  udp : List UInt8
  /-- The GTP header, with its optional part. -/
  gtp : List UInt8
  /-- The version is that of IPv4. -/
  version_eq : (Memory.ofList ip).highNibble 0 = ipVersion
  /-- The length field of the IP header is right. -/
  ip_length : ip.length = (Memory.ofList ip).lowNibble 0 * 4
  /-- The IP header has its mandatory part. -/
  ip_complete : sizeofIp ≤ ip.length
  /-- The protocol is UDP. -/
  protocol_eq : Memory.ofList ip 9 = ipProtoUdp
  /-- The length of a UDP header. -/
  udp_length : udp.length = sizeofUdphdr
  /-- One of the ports is a GTP port. -/
  port : hasGtpPort (Memory.ofList udp) 0
  /-- The optional part is there if a flag says so. -/
  gtp_length : gtp.length = sizeofGtpv1hdr
    + if flagOptions (Memory.ofList gtp) 0 ≠ 0 then sizeofGtpv1hdropt else 0
  /-- The version and protocol type are those of GTPv1. -/
  typever_eq : flagTypeVer (Memory.ofList gtp) 0 = gtpV1TypeVer
  /-- The message is a G-PDU. -/
  gpdu : messageType (Memory.ofList gtp) 0 = gtpv1MtGPdu
  /-- The extension flag is clear. -/
  not_ext : gtpExtFlag (flagOptions (Memory.ofList gtp) 0) = 0

/-- The packet inside the tunnel. -/
def TunnelHeaders.encapsulate (h : TunnelHeaders) (packet : List UInt8) : List UInt8 :=
  h.ip ++ h.udp ++ h.gtp ++ packet

/-- A frame with an IP packet inside some tunnels, the outermost one first. -/
structure TunnelledFrame where
  /-- The Ethernet header. -/
  ether : EtherHeader
  /-- The headers of the tunnels. -/
  tunnels : List TunnelHeaders
  /-- The packet. -/
  packet : List UInt8

/-- The bytes of the frame. -/
def TunnelledFrame.bytes (f : TunnelledFrame) : List UInt8 :=
  f.ether.bytes ++ f.tunnels.foldr TunnelHeaders.encapsulate f.packet

/-- The frame with some tunnels less. -/
def TunnelledFrame.peel (f : TunnelledFrame) (k : ℕ) : TunnelledFrame :=
  { f with tunnels := f.tunnels.drop k }

/-- The packet is a complete capture of the frame. -/
structure Packet.Captures (p : Packet) (frame : List UInt8) : Prop where
  /-- The bytes. -/
  holds : p.data.Holds 0 frame
  /-- The captured length. -/
  caplen_eq : p.header.caplen.toNat = frame.length
  /-- Nothing was cut off. -/
  complete : p.header.caplen = p.header.len

/-- No capture of the frame is taken for one with a GTP header. -/
def HasNoTunnel (frame : List UInt8) : Prop :=
  ∀ p : Packet, p.Captures frame → gtpv1GetHeader p.header.caplen p.data = none

/-! ## Reading headers in a frame -/

section Holds

variable {data : Memory} {base : ℕ} {l : List UInt8}

theorem eq_ofList_of_holds (h : data.Holds base l) {k : ℕ} (hk : k < l.length) :
    data (base + k) = Memory.ofList l k := by
  rw [Memory.ofList, List.getD_eq_getElem?_getD, h k hk, Option.getD_some]

theorem be16_eq_ofList_of_holds (h : data.Holds base l) {k : ℕ} (hk : k + 1 < l.length) :
    data.be16 (base + k) = (Memory.ofList l).be16 k := by
  rw [Memory.be16, Memory.be16, eq_ofList_of_holds h (by omega), Nat.add_assoc,
    eq_ofList_of_holds h hk]

theorem EtherHeader.of_holds {e : EtherHeader} (h : data.Holds 0 e.bytes) :
    etherLength data = e.bytes.length ∧ frameEtherType data = etherTypeIp := by
  have hsame : ∀ k < etherLength (Memory.ofList e.bytes), data k = Memory.ofList e.bytes k := by
    intro k hk
    have := eq_ofList_of_holds h (k := k) (by rwa [e.length_eq])
    rwa [Nat.zero_add] at this
  obtain ⟨hether, htype⟩ := ether_congr hsame
  exact ⟨hether.trans e.length_eq.symm, htype.trans e.etherType_eq⟩

end Holds

/-- A capture of a tunnelled packet is a frame that carries it in a G-PDU. -/
theorem Packet.Captures.tunnels {p : Packet} {e : EtherHeader} {h : TunnelHeaders}
    {q : List UInt8} (hp : p.Captures (e.bytes ++ h.encapsulate q)) :
    Tunnels p (e.bytes.length + h.ip.length + 8) q := by
  obtain ⟨hholds, hcaplen, hcomplete⟩ := hp
  simp only [TunnelHeaders.encapsulate, Memory.holds_append, Nat.zero_add, List.length_append,
    h.udp_length, sizeofUdphdr] at hholds hcaplen
  obtain ⟨hether, ⟨⟨hip, hudp⟩, hgtp⟩, hq⟩ := hholds
  rw [← Nat.add_assoc] at hgtp
  obtain ⟨hlength, htype⟩ := EtherHeader.of_holds hether
  have hcomplete' := h.ip_complete
  have hgtpLength := h.gtp_length
  rw [sizeofIp] at hcomplete'
  rw [sizeofGtpv1hdr] at hgtpLength
  -- the first octets of the outer IP header and of the GTP header
  have hip₀ : p.data e.bytes.length = Memory.ofList h.ip 0 :=
    eq_ofList_of_holds hip (k := 0) (by omega)
  have hgtp₀ : p.data (e.bytes.length + h.ip.length + 8) = Memory.ofList h.gtp 0 :=
    eq_ofList_of_holds hgtp (k := 0) (by omega)
  have hflags : flagOptions p.data (e.bytes.length + h.ip.length + 8)
      = flagOptions (Memory.ofList h.gtp) 0 := by
    rw [flagOptions, hgtp₀, flagOptions]
  have hudpOffset : udpOffset p.data = e.bytes.length + h.ip.length := by
    rw [udpOffset, hlength, Memory.lowNibble, hip₀, h.ip_length, Memory.lowNibble]
  have hport : hasGtpPort p.data (e.bytes.length + h.ip.length) := by
    have hsource := be16_eq_ofList_of_holds hudp (k := 0)
      (by rw [h.udp_length, sizeofUdphdr]; omega)
    have htarget := be16_eq_ofList_of_holds hudp (k := 2)
      (by rw [h.udp_length, sizeofUdphdr]; omega)
    rw [Nat.add_zero] at hsource
    rw [hasGtpPort, hsource, htarget]
    exact h.port
  refine ⟨hcomplete, ⟨by omega, htype, by omega, ?_, ?_, by omega, hudpOffset ▸ hport, by omega,
    ?_⟩, by rw [hudpOffset], ?_, ?_, ?_, ?_⟩
  · rw [hlength, Memory.highNibble, hip₀]
    exact h.version_eq
  · rw [hlength, eq_ofList_of_holds hip (by omega), h.protocol_eq]
  · rw [hudpOffset, flagTypeVer, Memory.highNibble, hgtp₀]
    exact h.typever_eq
  · rw [messageType, eq_ofList_of_holds hgtp (by omega)]
    exact h.gpdu
  · rw [hflags]
    exact h.not_ext
  · rw [hflags]
    refine (congrArg (p.data.Holds · q) ?_).mp hq
    rw [sizeofGtpv1hdr]
    omega
  · rw [hflags, sizeofGtpv1hdr]
    omega

/-! ## One pass -/

theorem Memory.bytes_of_holds {data : Memory} {l : List UInt8} (h : data.Holds 0 l) :
    data.bytes l.length = l := by
  have hdrop := drop_bytes_of_holds h (Nat.zero_add _)
  rwa [List.drop_zero] at hdrop

/-- A complete record is a capture of the frame that it holds. -/
theorem Record.reread_captures {r : Record} (hcaplen : r.header.caplen.toNat = r.bytes.length)
    (hcomplete : r.header.caplen = r.header.len) (past : Memory) :
    (r.reread past).Captures r.bytes := by
  refine ⟨fun k hk ↦ ?_, hcaplen, hcomplete⟩
  rw [Record.reread, Nat.zero_add]
  dsimp only
  rw [if_pos hk, List.getD_eq_getElem _ _ hk, List.getElem?_eq_getElem hk]

/-- **Untunnelling undoes encapsulation.** -/
theorem Packet.Captures.untunnel {p : Packet} {e : EtherHeader} {h : TunnelHeaders}
    {q : List UInt8} (hp : p.Captures (e.bytes ++ h.encapsulate q)) (past : Memory) :
    ((untunnelRecord p).reread past).Captures (e.bytes ++ q) := by
  have htunnels := hp.tunnels
  have hether := (Memory.holds_append.mp hp.holds).1
  have hbytes : (untunnelRecord p).bytes = e.bytes ++ q := by
    rw [untunnelRecord, htunnels.bytes, (EtherHeader.of_holds hether).1,
      Memory.bytes_of_holds hether]
  obtain ⟨hcaplen, hlen⟩ := lengths_of_not_ext none htunnels.found htunnels.not_ext
  rw [← hbytes]
  refine Record.reread_captures (Memory.length_bytes _).symm ?_ past
  rw [untunnelRecord, dumpRecord, hcaplen, hlen, hp.complete]

theorem Packet.Captures.pass {p : Packet} {frame : List UInt8} (hp : p.Captures frame)
    (hplain : HasNoTunnel frame) (past : Memory) :
    ((untunnelRecord p).reread past).Captures frame := by
  have hrecord : untunnelRecord p = p.record := by
    rw [untunnelRecord, pcapsessionUntunnelPacket, hplain p hp]
    rfl
  have hbytes : p.record.bytes = frame := by
    rw [Packet.record, dumpRecord, hp.caplen_eq, Memory.bytes_of_holds hp.holds]
  rw [hrecord, ← hbytes]
  exact Record.reread_captures (Memory.length_bytes _).symm hp.complete past

/-- One pass over the capture of a frame takes off its outermost tunnel, if it has one. -/
theorem TunnelledFrame.pass {p : Packet} {f : TunnelledFrame} (hp : p.Captures f.bytes)
    (hplain : HasNoTunnel (f.ether.bytes ++ f.packet)) (past : Memory) :
    ((untunnelRecord p).reread past).Captures (f.peel 1).bytes := by
  obtain ⟨e, tunnels, q⟩ := f
  cases tunnels with
  | nil => exact hp.pass hplain past
  | cons h tunnels => exact hp.untunnel past

/-! ## Many passes -/

/-- The packets after some passes of `gtpuntunnel`, each over the file that the one before it has
written, with other memory behind the records each time. -/
def passes (past : ℕ → List Memory) (packets : List Packet) : ℕ → List Packet
  | 0 => packets
  | k + 1 => rereadAll (gtpuntunnel (passes past packets k)) (past k)

theorem TunnelledFrame.peel_peel (f : TunnelledFrame) (k : ℕ) :
    (f.peel k).peel 1 = f.peel (k + 1) := by
  rw [peel, peel, peel, List.drop_drop]

theorem gtpuntunnel_pass {packets : List Packet} {frames : List TunnelledFrame}
    (hframes : List.Forall₂ (fun p f ↦ p.Captures f.bytes) packets frames)
    (hplain : ∀ f ∈ frames, HasNoTunnel (f.ether.bytes ++ f.packet)) (past : List Memory)
    (hpast : past.length = packets.length) :
    List.Forall₂ (fun p f ↦ p.Captures (f.peel 1).bytes) (rereadAll (gtpuntunnel packets) past)
      frames := by
  rw [gtpuntunnel_eq_map, rereadAll]
  induction hframes generalizing past with
  | nil => exact .nil
  | @cons p f packets frames hp _ ih =>
    obtain ⟨memory, past, rfl⟩ := List.exists_cons_of_length_eq_add_one hpast
    rw [List.map_cons, List.zipWith_cons_cons]
    exact .cons (TunnelledFrame.pass hp (hplain f List.mem_cons_self) memory)
      (ih (fun f' hf' ↦ hplain f' (List.mem_cons_of_mem _ hf')) past (Nat.succ.inj hpast))

/-- **Each pass takes off one tunnel.** A file of frames with any number of tunnels each is, after
`k` passes, a file of the same frames with their `k` outermost tunnels taken off, or all of them if
there were fewer. -/
theorem gtpuntunnel_peels (frames : List TunnelledFrame) (packets : List Packet)
    (hframes : List.Forall₂ (fun p f ↦ p.Captures f.bytes) packets frames)
    (hplain : ∀ f ∈ frames, HasNoTunnel (f.ether.bytes ++ f.packet))
    (past : ℕ → List Memory) (hpast : ∀ k, (past k).length = packets.length) (k : ℕ) :
    List.Forall₂ (fun p f ↦ p.Captures (f.peel k).bytes) (passes past packets k) frames := by
  induction k with
  | zero => exact hframes
  | succ k ih =>
    have hlength : (past k).length = (passes past packets k).length := by
      rw [hpast, hframes.length_eq, ih.length_eq]
    have hpass := gtpuntunnel_pass (List.forall₂_map_right_iff.mpr ih) (fun f hf ↦ ?_) (past k)
      hlength
    · simp only [List.forall₂_map_right_iff, TunnelledFrame.peel_peel] at hpass
      exact hpass
    · obtain ⟨f', hf', rfl⟩ := List.mem_map.mp hf
      exact hplain f' hf'

/-! ## Two tunnels -/

theorem hasNoTunnel_of_protocol (e : EtherHeader) {q : List UInt8} (hq : 9 < q.length)
    (hprotocol : Memory.ofList q 9 ≠ ipProtoUdp) : HasNoTunnel (e.bytes ++ q) := by
  intro p hp
  obtain ⟨hether, hholds⟩ := Memory.holds_append.mp hp.holds
  rw [Nat.zero_add] at hholds
  rw [Option.eq_none_iff_forall_ne_some]
  intro gtp hgtp
  obtain ⟨-, -, -, -, hip, -⟩ := gtpv1GetHeader_eq_some_iff.mp hgtp
  rw [(EtherHeader.of_holds hether).1, eq_ofList_of_holds hholds hq] at hip
  exact hprotocol hip

/-- The Ethernet header of an untagged frame. -/
def untaggedEther : EtherHeader where
  bytes := [0x00, 0x11, 0x22, 0x33, 0x44, 0x55, 0x66, 0x77, 0x88, 0x99, 0xaa, 0xbb, 0x08, 0x00]
  length_eq := by decide
  etherType_eq := by decide

/-- The headers of a tunnel without option fields. -/
def plainTunnel : TunnelHeaders where
  ip := [0x45, 0x00, 0x00, 0x38, 0x00, 0x00, 0x00, 0x00, 0x40, 0x11, 0x00, 0x00,
    0x0a, 0x00, 0x00, 0x01, 0x0a, 0x00, 0x00, 0x02]
  udp := [0x08, 0x68, 0x08, 0x68, 0x00, 0x24, 0x00, 0x00]
  gtp := [0x30, 0xff, 0x00, 0x14, 0x00, 0x00, 0x00, 0x01]
  version_eq := by decide
  ip_length := by decide
  ip_complete := by decide
  protocol_eq := by decide
  udp_length := by decide
  port := by decide
  gtp_length := by decide
  typever_eq := by decide
  gpdu := by decide
  not_ext := by decide

/-- A packet in a tunnel in a tunnel. -/
def twiceTunnelled : TunnelledFrame := ⟨untaggedEther, [plainTunnel, plainTunnel], bareIpv4⟩

/-- A capture of the packet. -/
def twiceTunnelledPacket : Packet :=
  ⟨⟨0, 0, 106, 106⟩, Memory.ofList twiceTunnelled.bytes⟩

/-- Two passes leave the packet behind its Ethernet header. -/
theorem gtpuntunnel_peels_twiceTunnelled :
    List.Forall₂ (fun p f ↦ Packet.Captures p (TunnelledFrame.bytes (f.peel 2)))
      (passes (fun _ ↦ [fun _ ↦ 7]) [twiceTunnelledPacket] 2) [twiceTunnelled] := by
  refine gtpuntunnel_peels [twiceTunnelled] [twiceTunnelledPacket]
    (.cons ⟨by decide, by decide, by decide⟩ .nil) (fun f hf ↦ ?_) _ (fun _ ↦ rfl) 2
  rw [List.mem_singleton.mp hf]
  exact hasNoTunnel_of_protocol untaggedEther (by decide) (by decide)

end DistributorMerger
