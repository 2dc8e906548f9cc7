import DistributorMerger.Gtp.HeaderSearch
import DistributorMerger.Pcap.Untunnel

/-!
# Untunnelling against the captured length

`pcapsession_untunnel_packet` trusts two lengths that nobody has compared. The number of bytes
that it moves is the new captured length, although the move starts at the end of the Ethernet
header, so it reads as many bytes past the capture as that header has. And the number of bytes
that it drops counts the optional part of the GTP header, which the header search never looked for.

Both subtractions are unsigned. They are the ones of the source, on `caplen` and on `len`.
-/

namespace DistributorMerger

/-! ## The bytes that are moved -/

/-- The `memmove` of `pcapsession_untunnel_packet`, with the offsets it reads and writes. The packet
stays where it is when no header is found or the header is extended. -/
def untunnelMove (header : PcapPkthdr) : Access Memory := fun data ↦
  match gtpv1GetHeader header.caplen data with
  | none => Access.memory data
  | some gtp =>
    if gtpExtFlag (flagOptions data gtp) ≠ 0 then Access.memory data
    else Access.memmove (untunnelTarget data) (untunnelSource data gtp)
      (header.caplen - untunnelDropped data gtp).toNat data

theorem value_untunnelMove (monitor : Option Monitor) (header : PcapPkthdr) (data : Memory) :
    (untunnelMove header).value data = (pcapsessionUntunnelPacket monitor header data).data := by
  unfold Access.value untunnelMove pcapsessionUntunnelPacket
  cases gtpv1GetHeader header.caplen data with
  | none => rfl
  | some gtp =>
    dsimp only
    split <;> rfl

/-- The move has nothing to move: the frame is tagged, its GTP header has no optional part, and as
many bytes are captured as the outer headers have. The header of such a frame lies past the
capture; the search reaches it because its subtractions wrap. -/
def EmptyMove (n : ℕ) (data : Memory) (gtp : ℕ) : Prop :=
  isTagged data ∧ flagOptions data gtp = 0 ∧ n = data.lowNibble 18 * 4 + 16

section Dropped

variable {header : PcapPkthdr} {data : Memory} {gtp : ℕ}

theorem source_sub_target (hgtp : gtpv1GetHeader header.caplen data = some gtp) :
    untunnelSource data gtp - untunnelTarget data
      = data.lowNibble (etherLength data) * 4 + 16
        + if flagOptions data gtp ≠ 0 then 4 else 0 := by
  have heq := gtpv1GetHeader_eq_some hgtp
  rw [untunnelTarget_eq, untunnelSource, sizeofGtpv1hdr, sizeofGtpv1hdropt]
  rw [sizeofUdphdr] at heq
  omega

theorem toNat_untunnelDropped (hgtp : gtpv1GetHeader header.caplen data = some gtp) :
    (untunnelDropped data gtp).toNat = untunnelSource data gtp - untunnelTarget data := by
  have hbounds := gtpv1GetHeader_bounds hgtp
  have hsource := untunnelSource_bounds data gtp
  rw [untunnelDropped_eq hgtp]
  exact UInt32.toNat_ofNat_of_lt' (show untunnelSource data gtp - _ < 2 ^ 32 by omega)

/-- A move of more than no bytes runs past the capture: without a wrap it ends as far behind the
capture as the Ethernet header is long, and with a wrap it is longer than the capture. -/
theorem below_memmove_iff (hgtp : gtpv1GetHeader header.caplen data = some gtp) :
    Access.Below header.caplen.toNat data
        (Access.memmove (untunnelTarget data) (untunnelSource data gtp)
          (header.caplen - untunnelDropped data gtp).toNat)
      ↔ header.caplen = untunnelDropped data gtp := by
  have hlt := header.caplen.toNat_lt
  have hbounds := gtpv1GetHeader_bounds hgtp
  have hsource := untunnelSource_bounds data gtp
  have hether := etherLength_eq data
  have htarget := untunnelTarget_eq data
  have hdropped := toNat_untunnelDropped hgtp
  rw [Access.below_memmove, UInt32.toNat_sub, hdropped]
  constructor
  · intro h
    refine UInt32.toNat_inj.mp ?_
    rw [hdropped]
    omega
  · intro h
    rw [h, hdropped]
    omega

/-- As many bytes are captured as are dropped only on the frames described by `EmptyMove`. On any
other frame the UDP header would begin within the capture and not end in it. -/
theorem caplen_eq_dropped_iff (hgtp : gtpv1GetHeader header.caplen data = some gtp) :
    header.caplen = untunnelDropped data gtp ↔ EmptyMove header.caplen.toNat data gtp := by
  have hsub := source_sub_target hgtp
  rw [← UInt32.toNat_inj, toNat_untunnelDropped hgtp, hsub, EmptyMove]
  constructor
  · intro hcaplen
    have hroom := (gtpv1GetHeader_eq_some_iff.mp hgtp).2.2.2.2.2.1
    have hinside : udpOffset data ≤ header.caplen.toNat →
        8 ≤ header.caplen.toNat - udpOffset data := by
      intro hle
      rwa [remaining_of_le hle] at hroom
    rw [udpOffset] at hinside
    by_cases htag : isTagged data
    · rw [etherLength, if_pos htag, sizeofEtherHeader, tagEther8021QLength] at hinside hcaplen
      by_cases hflags : flagOptions data gtp = 0
      · rw [if_neg (not_not.mpr hflags)] at hcaplen
        exact ⟨htag, hflags, hcaplen⟩
      · rw [if_pos hflags] at hcaplen
        omega
    · rw [etherLength, if_neg htag, sizeofEtherHeader] at hinside hcaplen
      split at hcaplen <;> omega
  · rintro ⟨htag, hflags, hcaplen⟩
    rw [etherLength, if_pos htag, if_neg (not_not.mpr hflags)]
    exact hcaplen

end Dropped

/-- **When the move stays inside the capture.** Every byte that untunnelling reads or writes is
captured exactly when nothing is moved: no header is found, the header is extended, or the frame is
one of those described by `EmptyMove`. -/
theorem untunnelMove_captured_iff (header : PcapPkthdr) (data : Memory) :
    (∀ k ∈ (untunnelMove header).reads data, k < header.caplen.toNat) ↔
      ∀ gtp, gtpv1GetHeader header.caplen data = some gtp →
        gtpExtFlag (flagOptions data gtp) ≠ 0 ∨ EmptyMove header.caplen.toNat data gtp := by
  unfold Access.reads untunnelMove
  cases hgtp : gtpv1GetHeader header.caplen data with
  | none => simp [Access.memory]
  | some gtp =>
    simp only [Option.some.injEq, forall_eq']
    by_cases hext : gtpExtFlag (flagOptions data gtp) = 0
    · rw [if_neg (not_not.mpr hext), ← caplen_eq_dropped_iff hgtp, ← below_memmove_iff hgtp]
      simp only [hext, ne_eq, not_true_eq_false, false_or]
      rfl
    · rw [if_pos hext]
      simp [Access.memory, hext]

/-- Untunnelling a G-PDU of 60 captured bytes reads the byte at offset 73. -/
theorem untunnelMove_reads_past_gpdu :
    ¬ ∀ k ∈ (untunnelMove (gtpFrame 0x30 255).header).reads (gtpFrame 0x30 255).data,
      k < (gtpFrame 0x30 255).header.caplen.toNat := by
  intro h
  exact absurd (h 73 (by decide)) (by decide)

/-! ## The lengths that are left -/

/-- The record header after untunnelling is one that a capture can have: the captured length has
not grown, still covers the Ethernet header and does not exceed the length on the wire, and neither
subtraction of `dropped` has wrapped. -/
structure PossibleHeader (monitor : Option Monitor) (header : PcapPkthdr) (data : Memory) :
    Prop where
  /-- No byte is added to the capture. -/
  shrinks : (pcapsessionUntunnelPacket monitor header data).header.caplen.toNat
    ≤ header.caplen.toNat
  /-- The Ethernet header, its tag included, is still captured. -/
  ether : etherLength data ≤ (pcapsessionUntunnelPacket monitor header data).header.caplen.toNat
  /-- No more bytes are captured than were on the wire. -/
  wire : (pcapsessionUntunnelPacket monitor header data).header.caplen.toNat
    ≤ (pcapsessionUntunnelPacket monitor header data).header.len.toNat
  /-- The bytes that are dropped were captured and on the wire. -/
  dropped : ∀ gtp, gtpv1GetHeader header.caplen data = some gtp →
    gtpExtFlag (flagOptions data gtp) = 0 →
      (untunnelDropped data gtp).toNat ≤ header.caplen.toNat ∧
        (untunnelDropped data gtp).toNat ≤ header.len.toNat

/-- The headers in front of the tunnelled packet are captured: the Ethernet header, and the GTP
header, with its optional part when a flag announces it, unless the GTP header is extended. -/
structure HeadersCaptured (caplen : UInt32) (data : Memory) : Prop where
  /-- The Ethernet header is captured. -/
  ether : etherLength data ≤ caplen.toNat
  /-- The mandatory part of the GTP header is captured. -/
  mandatory : ∀ gtp, gtpv1GetHeader caplen data = some gtp →
    gtpExtFlag (flagOptions data gtp) = 0 → gtp + sizeofGtpv1hdr ≤ caplen.toNat
  /-- The optional part of the GTP header is captured. -/
  optional : ∀ gtp, gtpv1GetHeader caplen data = some gtp →
    gtpExtFlag (flagOptions data gtp) = 0 → flagOptions data gtp ≠ 0 →
      gtp + sizeofGtpv1hdr + sizeofGtpv1hdropt ≤ caplen.toNat

section Lengths

variable {monitor : Option Monitor} {header : PcapPkthdr} {data : Memory} {gtp : ℕ}

theorem HeadersCaptured.source_le (h : HeadersCaptured header.caplen data)
    (hgtp : gtpv1GetHeader header.caplen data = some gtp)
    (hext : gtpExtFlag (flagOptions data gtp) = 0) :
    untunnelSource data gtp ≤ header.caplen.toNat := by
  unfold untunnelSource
  split
  · exact h.optional gtp hgtp hext ‹_›
  · exact h.mandatory gtp hgtp hext

theorem header_of_untouched (monitor : Option Monitor)
    (h : ∀ gtp, gtpv1GetHeader header.caplen data = some gtp →
      gtpExtFlag (flagOptions data gtp) ≠ 0) :
    (pcapsessionUntunnelPacket monitor header data).header = header := by
  cases hgtp : gtpv1GetHeader header.caplen data with
  | none => rw [pcapsessionUntunnelPacket, hgtp]
  | some gtp => exact (pcapsessionUntunnelPacket_of_ext monitor hgtp (h gtp hgtp)).1

theorem HeadersCaptured.possibleHeader (h : HeadersCaptured header.caplen data)
    (hlen : header.caplen.toNat ≤ header.len.toNat) : PossibleHeader monitor header data := by
  by_cases hrewritten : ∃ gtp, gtpv1GetHeader header.caplen data = some gtp ∧
      gtpExtFlag (flagOptions data gtp) = 0
  · -- The packet is rewritten: both lengths drop by the same part, which the capture covers.
    obtain ⟨gtp, hgtp, hext⟩ := hrewritten
    have hsource := h.source_le hgtp hext
    have htarget := untunnelTarget_lt_source hgtp
    have htargetEq := untunnelTarget_eq data
    have hdropped := toNat_untunnelDropped hgtp
    have hlt := header.len.toNat_lt
    obtain ⟨hnewCaplen, hnewLen⟩ := lengths_of_not_ext monitor hgtp hext
    have hcaplen := toNat_caplen_sub_dropped hgtp hsource
    have hwire : (header.len - untunnelDropped data gtp).toNat
        = header.len.toNat - (untunnelSource data gtp - untunnelTarget data) := by
      rw [UInt32.toNat_sub, hdropped]
      omega
    refine ⟨?_, ?_, ?_, ?_⟩
    · rw [hnewCaplen, hcaplen]
      omega
    · rw [hnewCaplen, hcaplen]
      omega
    · rw [hnewCaplen, hnewLen, hcaplen, hwire]
      omega
    · intro gtp' hgtp' _
      obtain rfl : gtp = gtp' := Option.some.inj (hgtp.symm.trans hgtp')
      rw [hdropped]
      omega
  · -- Every other packet keeps its header.
    have huntouched : ∀ gtp, gtpv1GetHeader header.caplen data = some gtp →
        gtpExtFlag (flagOptions data gtp) ≠ 0 :=
      fun gtp hgtp hext ↦ hrewritten ⟨gtp, hgtp, hext⟩
    have hheader := header_of_untouched monitor huntouched
    refine ⟨?_, ?_, ?_, fun gtp hgtp hext ↦ absurd hext (huntouched gtp hgtp)⟩
    · rw [hheader]
    · rw [hheader]
      exact h.ether
    · rw [hheader]
      exact hlen

/-- A header part that is missing from the capture shows in the new captured length: it no longer
covers the Ethernet header, or it has wrapped. -/
theorem PossibleHeader.source_le (h : PossibleHeader monitor header data)
    (hgtp : gtpv1GetHeader header.caplen data = some gtp)
    (hext : gtpExtFlag (flagOptions data gtp) = 0) :
    untunnelSource data gtp ≤ header.caplen.toNat := by
  have htarget := untunnelTarget_lt_source hgtp
  have htargetEq := untunnelTarget_eq data
  have hdropped := toNat_untunnelDropped hgtp
  have hroom := (h.dropped gtp hgtp hext).1
  have hether := h.ether
  have hlt := header.caplen.toNat_lt
  rw [(lengths_of_not_ext monitor hgtp hext).1, UInt32.toNat_sub, hdropped] at hether
  omega

theorem PossibleHeader.headersCaptured (h : PossibleHeader monitor header data) :
    HeadersCaptured header.caplen data := by
  refine ⟨h.ether.trans h.shrinks, fun gtp hgtp hext ↦ ?_, fun gtp hgtp hext hflags ↦ ?_⟩
  · exact (untunnelSource_bounds data gtp).1.trans (h.source_le hgtp hext)
  · have hsource := h.source_le hgtp hext
    rwa [untunnelSource, if_pos hflags] at hsource

end Lengths

/-- **When untunnelling leaves a possible record header.** For a packet of which no more was
captured than was on the wire, it does so exactly when the headers in front of the tunnelled packet
are captured. -/
theorem possibleHeader_iff_headersCaptured (monitor : Option Monitor) (header : PcapPkthdr)
    (data : Memory) (hlen : header.caplen.toNat ≤ header.len.toNat) :
    PossibleHeader monitor header data ↔ HeadersCaptured header.caplen data :=
  ⟨PossibleHeader.headersCaptured, fun h ↦ h.possibleHeader hlen⟩

/-- A G-PDU without option fields that is captured completely keeps a possible header. -/
theorem possibleHeader_gpdu :
    PossibleHeader none (gtpFrame 0x30 255).header (gtpFrame 0x30 255).data := by
  refine (possibleHeader_iff_headersCaptured none (gtpFrame 0x30 255).header
    (gtpFrame 0x30 255).data (by decide)).mpr ⟨by decide, ?_, ?_⟩
  · intro gtp hgtp _
    obtain rfl : 42 = gtp := Option.some.inj (Eq.trans (by decide) hgtp)
    decide
  · intro gtp hgtp _ hflags
    obtain rfl : 42 = gtp := Option.some.inj (Eq.trans (by decide) hgtp)
    exact absurd (by decide) hflags

/-- A G-PDU that was cut in front of its sequence number is left with ten captured bytes, which is
less than its Ethernet header. -/
theorem not_possibleHeader_truncated :
    (50 : UInt32).toNat ≤ (gtpFrame 0x32 255).header.len.toNat ∧
      ¬ PossibleHeader none { (gtpFrame 0x32 255).header with caplen := 50 }
        (gtpFrame 0x32 255).data := by
  refine ⟨by decide, fun h ↦ ?_⟩
  exact absurd h.ether (by decide)

end DistributorMerger
