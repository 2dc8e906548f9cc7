import DistributorMerger.Gtp.HeaderSearch
import DistributorMerger.Pcap.Untunnel

/-!
# What a receiver makes of an untunnelled frame

The frame that untunnelling emits is read back the way a receiver reads it: the EtherType behind
the addresses, or behind the tag if there is one, names the protocol of the payload, and the payload
is everything behind it. The emitted frame keeps the Ethernet header of the tunnel, whose EtherType
is that of IPv4, because no other tunnel is searched for a GTP header. The protocol of the packet
that comes out of the tunnel is never looked at.
-/

namespace DistributorMerger

/-! ## Reading a frame -/

/-- A receiver's view of a frame: the EtherType of the payload and the payload. -/
def parseEthernet (l : List UInt8) : Option (ℕ × List UInt8) :=
  if l.length < etherLength (Memory.ofList l) then none
  else some (frameEtherType (Memory.ofList l), l.drop (etherLength (Memory.ofList l)))

theorem parseEthernet_append (data : Memory) (q : List UInt8) :
    parseEthernet (data.bytes (etherLength data) ++ q) = some (frameEtherType data, q) := by
  have hsame : ∀ k < etherLength data,
      Memory.ofList (data.bytes (etherLength data) ++ q) k = data k := by
    intro k hk
    rw [Memory.ofList, List.getD_eq_getElem?_getD,
      List.getElem?_append_left (by rwa [Memory.length_bytes]), Memory.getElem?_bytes hk,
      Option.getD_some]
  obtain ⟨hether, htype⟩ := ether_congr hsame
  rw [parseEthernet, hether, htype, if_neg (by simp), List.drop_left' (Memory.length_bytes _)]

/-! ## The packets inside a tunnel -/

/-- The EtherType of IPv6. -/
def etherTypeIpv6 : ℕ := 0x86dd

/-- A well-formed IPv4 packet: the version, a header of at least 20 bytes, and the total length. -/
structure IsIpv4 (q : List UInt8) : Prop where
  /-- The version field. -/
  version : (Memory.ofList q).highNibble 0 = 4
  /-- The header has at least five words. -/
  headerLength : 5 ≤ (Memory.ofList q).lowNibble 0
  /-- The header fits the packet. -/
  header : (Memory.ofList q).lowNibble 0 * 4 ≤ q.length
  /-- The total length is that of the packet. -/
  totalLength : (Memory.ofList q).be16 2 = q.length

/-- A well-formed IPv6 packet: the version and the length behind the header of 40 bytes. -/
structure IsIpv6 (q : List UInt8) : Prop where
  /-- The version field. -/
  version : (Memory.ofList q).highNibble 0 = 6
  /-- The payload length is that of the packet behind its header. -/
  payloadLength : 40 + (Memory.ofList q).be16 4 = q.length

/-- The EtherType that announces a packet of the version of `q`. -/
def etherTypeOf (q : List UInt8) : ℕ :=
  if (Memory.ofList q).highNibble 0 = 6 then etherTypeIpv6 else etherTypeIp

/-- A complete frame that carries the packet `q` in a G-PDU whose GTP header stands at `gtp`: the
frame has a GTPv1 header without extension, and `q` is what lies between that header and the end of
the frame. Such a frame is longer than the shortest Ethernet frame, so it has no padding. -/
structure Tunnels (p : Packet) (gtp : ℕ) (q : List UInt8) : Prop where
  /-- The frame is captured completely. -/
  complete : p.header.caplen = p.header.len
  /-- The frame carries a GTPv1 header. -/
  frame : GtpFrame p.header.caplen.toNat p.data
  /-- The header stands behind the UDP header. -/
  gtp_eq : udpOffset p.data + 8 = gtp
  /-- The message is a G-PDU. -/
  gpdu : messageType p.data gtp = gtpv1MtGPdu
  /-- The extension flag is clear. -/
  not_ext : gtpExtFlag (flagOptions p.data gtp) = 0
  /-- The tunnelled packet begins behind the GTP header, its optional part included. -/
  payload : p.data.Holds
    (gtp + sizeofGtpv1hdr + if flagOptions p.data gtp ≠ 0 then sizeofGtpv1hdropt else 0) q
  /-- The tunnelled packet ends with the frame. -/
  length_eq : gtp + sizeofGtpv1hdr + (if flagOptions p.data gtp ≠ 0 then sizeofGtpv1hdropt else 0)
    + q.length = p.header.caplen.toNat

/-- The frame that is emitted reads as an Ethernet frame with the packet `q`, under the EtherType of
its version, and its record header gives the length of that frame. -/
def EmitsPacket (monitor : Option Monitor) (p : Packet) (q : List UInt8) : Prop :=
  let u := pcapsessionUntunnelPacket monitor p.header p.data
  parseEthernet (dumpRecord u.header u.data).bytes = some (etherTypeOf q, q) ∧
    u.header.caplen.toNat = (dumpRecord u.header u.data).bytes.length ∧
    u.header.len = u.header.caplen

section Emitted

variable {monitor : Option Monitor} {p : Packet} {gtp : ℕ} {q : List UInt8}

theorem drop_bytes_of_holds {data : Memory} {base n : ℕ} (h : data.Holds base q)
    (hn : base + q.length = n) : (data.bytes n).drop base = q := by
  refine List.ext_getElem? fun k ↦ ?_
  rw [List.getElem?_drop]
  by_cases hk : k < q.length
  · rw [h k hk, Memory.getElem?_bytes (by omega)]
  · rw [List.getElem?_eq_none (by rw [Memory.length_bytes]; omega),
      List.getElem?_eq_none (by omega)]

theorem Tunnels.found (h : Tunnels p gtp q) :
    gtpv1GetHeader p.header.caplen p.data = some gtp := by
  have hip := h.frame.ip
  have hudp := h.frame.udp
  have haccept := (isSome_iff_gtpFrame (fun _ htag ↦ ?_) fun _ ↦ by omega).mpr h.frame
  · obtain ⟨gtp', hgtp'⟩ := Option.isSome_iff_exists.mp haccept
    have heq := gtpv1GetHeader_eq_some hgtp'
    rw [hgtp', heq, ← h.gtp_eq, udpOffset, sizeofUdphdr]
  · rw [etherLength, if_pos htag, sizeofEtherHeader, tagEther8021QLength] at hip
    omega

/-- Untunnelling emits the Ethernet header of the tunnel and the tunnelled packet. -/
theorem Tunnels.bytes (h : Tunnels p gtp q) :
    (dumpRecord (pcapsessionUntunnelPacket monitor p.header p.data).header
        (pcapsessionUntunnelPacket monitor p.header p.data).data).bytes
      = p.data.bytes (etherLength p.data) ++ q := by
  have hsource : untunnelSource p.data gtp + q.length = p.header.caplen.toNat := h.length_eq
  have hdrop : (p.data.bytes p.header.caplen.toNat).drop (untunnelSource p.data gtp) = q :=
    drop_bytes_of_holds h.payload hsource
  rw [dumpRecord, bytes_of_not_ext h.found h.not_ext (by omega), untunnelTarget_eq, hdrop]

/-- A receiver finds the tunnelled packet behind the EtherType of IPv4. -/
theorem Tunnels.parseEthernet_eq (h : Tunnels p gtp q) :
    parseEthernet (dumpRecord (pcapsessionUntunnelPacket monitor p.header p.data).header
        (pcapsessionUntunnelPacket monitor p.header p.data).data).bytes
      = some (etherTypeIp, q) := by
  rw [h.bytes, parseEthernet_append, h.frame.etherType]

end Emitted

/-- **Untunnelling preserves the meaning of IPv4 traffic only.** For every complete frame that
carries a well-formed IPv4 or IPv6 packet in a G-PDU without extension, the emitted frame reads as
an Ethernet frame with that packet exactly when the packet is an IPv4 packet. -/
theorem emitsPacket_iff_isIpv4 (monitor : Option Monitor) (p : Packet) (gtp : ℕ) (q : List UInt8)
    (h : Tunnels p gtp q) (hq : IsIpv4 q ∨ IsIpv6 q) : EmitsPacket monitor p q ↔ IsIpv4 q := by
  constructor
  · rintro ⟨hparse, -, -⟩
    rw [h.parseEthernet_eq] at hparse
    have htype : etherTypeIp = etherTypeOf q := (Prod.mk.inj (Option.some.inj hparse)).1
    refine hq.resolve_right fun hv6 ↦ ?_
    rw [etherTypeOf, if_pos hv6.version] at htype
    exact absurd htype (by decide)
  · intro hv4
    have htype : etherTypeOf q = etherTypeIp := by
      rw [etherTypeOf, hv4.version]
      rfl
    obtain ⟨hcaplen, hlen⟩ := lengths_of_not_ext monitor h.found h.not_ext
    refine ⟨?_, ?_, ?_⟩
    · rw [htype]
      exact h.parseEthernet_eq
    · rw [dumpRecord, Memory.length_bytes]
    · rw [hlen, hcaplen, h.complete]

/-- A frame that carries the packet `q` in a G-PDU without option fields. -/
def gpduFrame (q : List UInt8) : Packet where
  header :=
    { tvSec := 0, tvUsec := 0, caplen := UInt32.ofNat (50 + q.length)
      len := UInt32.ofNat (50 + q.length) }
  data := Memory.ofList ((gtpFrame 0x30 255).data.bytes 50 ++ q)

/-- An IPv4 header without payload. -/
def bareIpv4 : List UInt8 :=
  [0x45, 0x00, 0x00, 0x14, 0x00, 0x00, 0x00, 0x00, 0x40, 0x3b, 0x00, 0x00,
    0x0a, 0x00, 0x00, 0x01, 0x0a, 0x00, 0x00, 0x02]

/-- An IPv6 header without payload. -/
def bareIpv6 : List UInt8 := 0x60 :: List.replicate 5 0x00 ++ 0x3b :: List.replicate 33 0x00

theorem emitsPacket_bareIpv4 : EmitsPacket none (gpduFrame bareIpv4) bareIpv4 :=
  (emitsPacket_iff_isIpv4 none (gpduFrame bareIpv4) 42 bareIpv4
    ⟨by decide, ⟨by decide, by decide, by decide, by decide, by decide, by decide, by decide,
      by decide, by decide⟩, by decide, by decide, by decide, by decide, by decide⟩
    (.inl ⟨by decide, by decide, by decide, by decide⟩)).mpr
    ⟨by decide, by decide, by decide, by decide⟩

/-- A bare IPv6 header comes out of the tunnel under the EtherType of IPv4. -/
theorem not_emitsPacket_bareIpv6 :
    Tunnels (gpduFrame bareIpv6) 42 bareIpv6 ∧ IsIpv6 bareIpv6 ∧
      ¬ EmitsPacket none (gpduFrame bareIpv6) bareIpv6 := by
  have htunnels : Tunnels (gpduFrame bareIpv6) 42 bareIpv6 :=
    ⟨by decide, ⟨by decide, by decide, by decide, by decide, by decide, by decide, by decide,
      by decide, by decide⟩, by decide, by decide, by decide, by decide, by decide⟩
  refine ⟨htunnels, ⟨by decide, by decide⟩, ?_⟩
  rintro ⟨hparse, -, -⟩
  rw [htunnels.parseEthernet_eq] at hparse
  exact absurd hparse (by decide)

end DistributorMerger
