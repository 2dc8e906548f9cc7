import DistributorMerger.Pcap.Monitor

/-!
# Untunnelling a packet in place

`pcapsession_untunnel_packet` moves what follows the GTP header up to just under the Ethernet
header and shortens both lengths of the packet header. Two callers use it: the merger, which
passes its session so that the GTP counters of the session's monitor are updated, and the filter
program `gtpuntunnel`, which passes none.

The function decides on the header flags alone. The message type, which tells tunnelled user
traffic from signalling, is never read, so a signalling message keeps its bytes only when it
carries the extension flag.
-/

namespace DistributorMerger

/-- What a call of `pcapsession_untunnel_packet` leaves behind. -/
structure Untunnelled where
  /-- The monitor of the session that was passed, if any. -/
  monitor : Option Monitor
  /-- The packet header after the call. -/
  header : PcapPkthdr
  /-- The memory at the data pointer after the call. -/
  data : Memory

/-- `source_ptr`: the end of the GTP header at `gtp`, its optional part included. -/
def untunnelSource (data : Memory) (gtp : ℕ) : ℕ :=
  gtp + sizeofGtpv1hdr + if flagOptions data gtp ≠ 0 then sizeofGtpv1hdropt else 0

/-- `target_ptr`: the end of the Ethernet header, its tag included. -/
def untunnelTarget (data : Memory) : ℕ :=
  sizeofEtherHeader + if isTagged data then tagEther8021QLength else 0

/-- `dropped`, as the unsigned arithmetic on `caplen` and `len` sees it. -/
def untunnelDropped (data : Memory) (gtp : ℕ) : UInt32 :=
  UInt32.ofNat (untunnelSource data gtp) - UInt32.ofNat (untunnelTarget data)

/-- `pcapsession_untunnel_packet`. -/
def pcapsessionUntunnelPacket (monitor : Option Monitor) (header : PcapPkthdr) (data : Memory) :
    Untunnelled :=
  match gtpv1GetHeader header.caplen data with
  | none => ⟨monitor, header, data⟩
  | some gtp =>
    -- the packet is counted whether or not it is rewritten
    let monitor := monitor.map fun m ↦
      m.incrementGtp 1 header.len.toNat (flagOptions data gtp)
    if gtpExtFlag (flagOptions data gtp) ≠ 0 then ⟨monitor, header, data⟩
    else
      let dropped := untunnelDropped data gtp
      -- both lengths are unsigned and wrap when there is less than is dropped
      ⟨monitor, { header with caplen := header.caplen - dropped, len := header.len - dropped },
        data.memmove (untunnelTarget data) (untunnelSource data gtp)
          (header.caplen - dropped).toNat⟩

/-- The record that is dumped for a packet after untunnelling. -/
def untunnelRecord (p : Packet) : Record :=
  let u := pcapsessionUntunnelPacket none p.header p.data
  dumpRecord u.header u.data

/-- The packet handler of `gtpuntunnel`: untunnel a copy of the header, then dump. -/
def gtpuntunnelPacketHandler (out : List Record) (p : Packet) : List Record :=
  out ++ [untunnelRecord p]

/-! ## What the call does to the packet -/

theorem pcapsessionUntunnelPacket_monitor (monitor : Option Monitor) (header : PcapPkthdr)
    (data : Memory) :
    (pcapsessionUntunnelPacket monitor header data).header
        = (pcapsessionUntunnelPacket none header data).header ∧
      (pcapsessionUntunnelPacket monitor header data).data
        = (pcapsessionUntunnelPacket none header data).data := by
  unfold pcapsessionUntunnelPacket
  cases gtpv1GetHeader header.caplen data with
  | none => exact ⟨rfl, rfl⟩
  | some gtp =>
    dsimp only
    split <;> exact ⟨rfl, rfl⟩

theorem pcapsessionUntunnelPacket_of_ext (monitor : Option Monitor) {header : PcapPkthdr}
    {data : Memory} {gtp : ℕ} (hgtp : gtpv1GetHeader header.caplen data = some gtp)
    (hext : gtpExtFlag (flagOptions data gtp) ≠ 0) :
    (pcapsessionUntunnelPacket monitor header data).header = header ∧
      (pcapsessionUntunnelPacket monitor header data).data = data := by
  rw [pcapsessionUntunnelPacket, hgtp]
  simp only [hext, ne_eq, not_false_eq_true, if_true, and_self]

theorem lengths_of_not_ext (monitor : Option Monitor) {header : PcapPkthdr} {data : Memory}
    {gtp : ℕ} (hgtp : gtpv1GetHeader header.caplen data = some gtp)
    (hext : gtpExtFlag (flagOptions data gtp) = 0) :
    (pcapsessionUntunnelPacket monitor header data).header.caplen
        = header.caplen - untunnelDropped data gtp ∧
      (pcapsessionUntunnelPacket monitor header data).header.len
        = header.len - untunnelDropped data gtp := by
  rw [pcapsessionUntunnelPacket, hgtp]
  simp only [hext, ne_eq, not_true_eq_false, if_false, and_self]

theorem untunnelTarget_eq (data : Memory) : untunnelTarget data = etherLength data := by
  unfold untunnelTarget etherLength
  split <;> rfl

theorem untunnelSource_bounds (data : Memory) (gtp : ℕ) :
    gtp + 8 ≤ untunnelSource data gtp ∧ untunnelSource data gtp ≤ gtp + 12 := by
  unfold untunnelSource sizeofGtpv1hdr sizeofGtpv1hdropt
  split <;> omega

theorem untunnelTarget_lt_source {length : UInt32} {data : Memory} {gtp : ℕ}
    (hgtp : gtpv1GetHeader length data = some gtp) :
    untunnelTarget data < untunnelSource data gtp := by
  have hbounds := gtpv1GetHeader_bounds hgtp
  have hsource := untunnelSource_bounds data gtp
  rw [untunnelTarget_eq]
  omega

theorem untunnelDropped_eq {length : UInt32} {data : Memory} {gtp : ℕ}
    (hgtp : gtpv1GetHeader length data = some gtp) :
    untunnelDropped data gtp = UInt32.ofNat (untunnelSource data gtp - untunnelTarget data) := by
  rw [untunnelDropped, UInt32.ofNat_sub (untunnelTarget_lt_source hgtp).le]

/-- At least the two eight-octet headers between the target and the payload are dropped. -/
theorem untunnelDropped_ne_zero {length : UInt32} {data : Memory} {gtp : ℕ}
    (hgtp : gtpv1GetHeader length data = some gtp) : untunnelDropped data gtp ≠ 0 := by
  obtain ⟨hlow, hhigh⟩ := gtpv1GetHeader_bounds hgtp
  have htarget := untunnelTarget_lt_source hgtp
  have hsource := untunnelSource_bounds data gtp
  intro hzero
  have hnat := congrArg UInt32.toNat hzero
  rw [untunnelDropped_eq hgtp, UInt32.toNat_ofNat', UInt32.toNat_zero] at hnat
  omega

theorem pcapsessionUntunnelPacket_caplen_ne {monitor : Option Monitor} {header : PcapPkthdr}
    {data : Memory} {gtp : ℕ} (hgtp : gtpv1GetHeader header.caplen data = some gtp)
    (hext : gtpExtFlag (flagOptions data gtp) = 0) :
    (pcapsessionUntunnelPacket monitor header data).header.caplen ≠ header.caplen := by
  rw [(lengths_of_not_ext monitor hgtp hext).1]
  intro heq
  exact untunnelDropped_ne_zero hgtp (sub_eq_self.mp heq)

/-! ## What is removed -/

/-- Moving the bytes from `source` on down to `target` shows, below the shortened length, the bytes
in front of `target` followed by those behind `source`. -/
theorem bytes_memmove {data : Memory} {target source n : ℕ} (h : target ≤ source)
    (hn : source ≤ n) :
    (data.memmove target source (n - (source - target))).bytes (n - (source - target))
      = data.bytes target ++ (data.bytes n).drop source := by
  refine List.ext_getElem ?_ fun k hk _ ↦ ?_
  · rw [Memory.length_bytes, List.length_append, Memory.length_bytes, List.length_drop,
      Memory.length_bytes]
    omega
  · rw [Memory.length_bytes] at hk
    by_cases hkt : k < target
    · rw [List.getElem_append_left (by rwa [Memory.length_bytes])]
      simp only [Memory.bytes, List.getElem_map, List.getElem_range, Memory.memmove]
      rw [if_neg (by omega)]
    · rw [List.getElem_append_right (by rw [Memory.length_bytes]; omega)]
      simp only [Memory.bytes, List.getElem_map, List.getElem_range, Memory.memmove,
        List.getElem_drop, List.length_map, List.length_range]
      rw [if_pos (by omega)]

section RemovesOuter

variable {monitor : Option Monitor} {header : PcapPkthdr} {data : Memory} {gtp : ℕ}

theorem toNat_caplen_sub_dropped (hgtp : gtpv1GetHeader header.caplen data = some gtp)
    (hsource : untunnelSource data gtp ≤ header.caplen.toNat) :
    (header.caplen - untunnelDropped data gtp).toNat
      = header.caplen.toNat - (untunnelSource data gtp - untunnelTarget data) := by
  have hlt := header.caplen.toNat_lt
  rw [untunnelDropped_eq hgtp, UInt32.toNat_sub, UInt32.toNat_ofNat']
  omega

theorem bytes_of_not_ext (hgtp : gtpv1GetHeader header.caplen data = some gtp)
    (hext : gtpExtFlag (flagOptions data gtp) = 0)
    (hsource : untunnelSource data gtp ≤ header.caplen.toNat) :
    (pcapsessionUntunnelPacket monitor header data).data.bytes
        (pcapsessionUntunnelPacket monitor header data).header.caplen.toNat
      = data.bytes (untunnelTarget data)
        ++ (data.bytes header.caplen.toNat).drop (untunnelSource data gtp) := by
  rw [(lengths_of_not_ext monitor hgtp hext).1, pcapsessionUntunnelPacket, hgtp]
  simp only [hext, ne_eq, not_true_eq_false, if_false]
  rw [toNat_caplen_sub_dropped hgtp hsource]
  exact bytes_memmove (untunnelTarget_lt_source hgtp).le hsource

end RemovesOuter

/-- **Untunnelling removes exactly the outer headers.** Both lengths shrink by what lies between
the end of the Ethernet header and the end of the GTP header, and the captured bytes are those of
the Ethernet header followed by those behind the GTP header. -/
theorem pcapsessionUntunnelPacket_removes_outer (monitor : Option Monitor) (header : PcapPkthdr)
    (data : Memory) (gtp : ℕ) (hgtp : gtpv1GetHeader header.caplen data = some gtp)
    (hext : gtpExtFlag (flagOptions data gtp) = 0)
    (hsource : untunnelSource data gtp ≤ header.caplen.toNat) :
    (pcapsessionUntunnelPacket monitor header data).header.caplen.toNat
        = header.caplen.toNat - (untunnelSource data gtp - untunnelTarget data) ∧
      (pcapsessionUntunnelPacket monitor header data).header.len
        = header.len - UInt32.ofNat (untunnelSource data gtp - untunnelTarget data) ∧
      (pcapsessionUntunnelPacket monitor header data).data.bytes
          (pcapsessionUntunnelPacket monitor header data).header.caplen.toNat
        = data.bytes (untunnelTarget data)
          ++ (data.bytes header.caplen.toNat).drop (untunnelSource data gtp) := by
  obtain ⟨hcaplen, hlen⟩ := lengths_of_not_ext monitor hgtp hext
  refine ⟨?_, ?_, bytes_of_not_ext hgtp hext hsource⟩
  · rw [hcaplen, toNat_caplen_sub_dropped hgtp hsource]
  · rw [hlen, untunnelDropped_eq hgtp]

/-- A G-PDU with no option fields loses 36 bytes of headers. -/
theorem pcapsessionUntunnelPacket_removes_outer_gpdu :
    (pcapsessionUntunnelPacket none (gtpFrame 0x30 255).header
      (gtpFrame 0x30 255).data).header.caplen.toNat = 60 - (50 - 14) :=
  (pcapsessionUntunnelPacket_removes_outer none (gtpFrame 0x30 255).header
    (gtpFrame 0x30 255).data 42 (by decide) (by decide) (by decide)).1

/-! ## Signalling messages -/

/-- The call leaves both lengths and every captured byte of the packet as they were, and the
record dumped afterwards is the one received. -/
def UntunnelLeavesUnchanged (monitor : Option Monitor) (p : Packet) : Prop :=
  let u := pcapsessionUntunnelPacket monitor p.header p.data
  u.header.caplen = p.header.caplen ∧ u.header.len = p.header.len ∧
    (∀ k < p.header.caplen.toNat, u.data k = p.data k) ∧ dumpRecord u.header u.data = p.record

/-- An echo request without option fields loses the bytes in front of its payload. -/
theorem untunnel_rewrites_echo_request :
    gtpv1GetHeader (gtpFrame 0x30 1).header.caplen (gtpFrame 0x30 1).data = some 42 ∧
      messageType (gtpFrame 0x30 1).data 42 ≠ gtpv1MtGPdu ∧
      ¬ UntunnelLeavesUnchanged none (gtpFrame 0x30 1) := by
  have hgtp : gtpv1GetHeader (gtpFrame 0x30 1).header.caplen (gtpFrame 0x30 1).data = some 42 := by
    decide
  refine ⟨hgtp, by decide, ?_⟩
  rintro ⟨hcaplen, -, -, -⟩
  exact pcapsessionUntunnelPacket_caplen_ne hgtp (by decide) hcaplen

/-- **Signalling is rewritten unless it is extended.** A captured message other than a G-PDU comes
through untunnelling unchanged exactly when its extension flag is set. -/
theorem untunnelLeavesUnchanged_iff_ext (monitor : Option Monitor) (p : Packet) (gtp : ℕ)
    (hgtp : gtpv1GetHeader p.header.caplen p.data = some gtp)
    (_htype : messageType p.data gtp ≠ gtpv1MtGPdu) :
    UntunnelLeavesUnchanged monitor p ↔ gtpExtFlag (flagOptions p.data gtp) ≠ 0 := by
  constructor
  · rintro ⟨hcaplen, -, -, -⟩ hext
    exact pcapsessionUntunnelPacket_caplen_ne hgtp hext hcaplen
  · intro hext
    obtain ⟨hheader, hdata⟩ := pcapsessionUntunnelPacket_of_ext monitor hgtp hext
    simp only [UntunnelLeavesUnchanged, hheader, hdata]
    exact ⟨trivial, trivial, fun _ _ ↦ trivial, rfl⟩

/-- An extended echo request is one of the signalling messages that stay as they are. -/
theorem untunnelLeavesUnchanged_extended_echo_request :
    UntunnelLeavesUnchanged none (gtpFrame 0x34 1) :=
  (untunnelLeavesUnchanged_iff_ext none (gtpFrame 0x34 1) 42 (by decide) (by decide)).mpr
    (by decide)

end DistributorMerger
