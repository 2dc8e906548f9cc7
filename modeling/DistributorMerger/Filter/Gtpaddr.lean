import DistributorMerger.Gtp.HeaderSearch

/-!
# Rewriting addresses inside the tunnel

`gtpaddr` copies a capture file and changes one IP address in the tunnelled packets. A packet is
touched when it carries a GTPv1 header without the extension flag whose message type is G-PDU: the
source address of the inner IP header is replaced if it is the old address, and otherwise the
destination address is. Every packet is dumped, with the packet header as received.

Addresses are compared and copied as the four octets stand in memory, which `UInt32` in network
order represents.
-/

namespace DistributorMerger

/-- `inner_ip_header`: the IP header behind the GTP header at `gtp`, its optional part included. -/
def innerIpHeader (data : Memory) (gtp : ℕ) : ℕ :=
  if flagOptions data gtp ≠ 0 then gtp + sizeofGtpv1hdr + sizeofGtpv1hdropt
  else gtp + sizeofGtpv1hdr

/-- The offset of `ip_src` in an IP header at `ip`. -/
def ipSrc (ip : ℕ) : ℕ := ip + 12

/-- The offset of `ip_dst` in an IP header at `ip`. -/
def ipDst (ip : ℕ) : ℕ := ip + 16

/-- The memory at the data pointer when the packet is dumped. -/
def gtpaddrData (oldIp newIp : UInt32) (length : UInt32) (data : Memory) : Memory :=
  match gtpv1GetHeader length data with
  | none => data
  | some gtp =>
    -- a header with extensions is left alone
    if gtpExtFlag (flagOptions data gtp) ≠ 0 then data
    else
      let inner := innerIpHeader data gtp
      if messageType data gtp = gtpv1MtGPdu then
        if data.be32 (ipSrc inner) = oldIp then data.putBe32 (ipSrc inner) newIp
        -- the destination is looked at only if the source was another address
        else if data.be32 (ipDst inner) = oldIp then data.putBe32 (ipDst inner) newIp
        else data
      else data

/-- The packet handler of `gtpaddr`. -/
def gtpaddrPacketHandler (oldIp newIp : UInt32) (out : List Record) (p : Packet) : List Record :=
  out ++ [dumpRecord p.header (gtpaddrData oldIp newIp p.header.caplen p.data)]

/-- A run of `gtpaddr`: the records of the file it writes. -/
def gtpaddr (oldIp newIp : UInt32) (packets : List Packet) : List Record :=
  packets.foldl (gtpaddrPacketHandler oldIp newIp) []

/-- A record as a later program receives it, with the given memory behind its bytes. -/
def Record.reread (r : Record) (past : Memory) : Packet where
  header := r.header
  data := fun k ↦ if k < r.bytes.length then r.bytes.getD k 0 else past k

theorem gtpaddr_eq_map (oldIp newIp : UInt32) (packets : List Packet) :
    gtpaddr oldIp newIp packets
      = packets.map fun p ↦
        dumpRecord p.header (gtpaddrData oldIp newIp p.header.caplen p.data) := by
  have hrun : ∀ out, packets.foldl (gtpaddrPacketHandler oldIp newIp) out = out ++
      packets.map fun p ↦
        dumpRecord p.header (gtpaddrData oldIp newIp p.header.caplen p.data) := by
    induction packets with
    | nil => simp
    | cons p packets ih =>
      intro out
      rw [List.foldl_cons, ih, gtpaddrPacketHandler, List.append_assoc, List.singleton_append,
        List.map_cons]
  exact hrun []

/-- Rereading what was dumped gives the memory back where nothing past the captured bytes
differs. -/
theorem reread_dumpRecord {header : PcapPkthdr} {data past : Memory}
    (h : ∀ k, header.caplen.toNat ≤ k → data k = past k) :
    (dumpRecord header data).reread past = ⟨header, data⟩ := by
  have hdata : ∀ k, (if k < (data.bytes header.caplen.toNat).length
      then (data.bytes header.caplen.toNat).getD k 0 else past k) = data k := by
    intro k
    rw [Memory.length_bytes]
    split
    · rename_i hk
      rw [List.getD_eq_getElem?_getD, Memory.getElem?_bytes hk, Option.getD_some]
    · rename_i hk
      exact (h k (not_lt.mp hk)).symm
  exact congrArg (Packet.mk header) (funext hdata)

/-! ## What a packet must satisfy to be restored -/

/-- The packet is tunnelled user traffic that `gtpaddr` looks into, with its header at `gtp`. -/
def IsPlainGPdu (p : Packet) (gtp : ℕ) : Prop :=
  gtpv1GetHeader p.header.caplen p.data = some gtp ∧ gtpExtFlag (flagOptions p.data gtp) = 0 ∧
    messageType p.data gtp = gtpv1MtGPdu

/-- The inner IP header is captured, and the address is neither its source nor its destination. -/
structure InnerAvoids (ip : UInt32) (p : Packet) (gtp : ℕ) : Prop where
  /-- The inner IP header is captured. -/
  captured : innerIpHeader p.data gtp + sizeofIp ≤ p.header.caplen.toNat
  /-- The source is another address. -/
  source : p.data.be32 (ipSrc (innerIpHeader p.data gtp)) ≠ ip
  /-- The destination is another address. -/
  destination : p.data.be32 (ipDst (innerIpHeader p.data gtp)) ≠ ip

theorem le_innerIpHeader (data : Memory) (gtp : ℕ) : gtp + 8 ≤ innerIpHeader data gtp := by
  unfold innerIpHeader sizeofGtpv1hdr sizeofGtpv1hdropt
  split <;> omega

/-! ## The search does not see what is rewritten -/

/-- The search for a header that is found depends only on the bytes in front of the end of that
header. -/
theorem gtpv1GetHeader_congr {length : UInt32} {data data' : Memory} {gtp : ℕ}
    (h : gtpv1GetHeader length data = some gtp) (hdata : ∀ k < gtp + 8, data' k = data k) :
    gtpv1GetHeader length data' = some gtp := by
  obtain ⟨hlow, -⟩ := gtpv1GetHeader_bounds h
  obtain ⟨hether, htype⟩ := ether_congr fun k hk ↦ hdata k (by omega)
  have hbe16 : ∀ k, k + 1 < gtp + 8 → data'.be16 k = data.be16 k := by
    intro k hk
    rw [Memory.be16, Memory.be16, hdata k (by omega), hdata (k + 1) hk]
  have hudp : udpOffset data' = udpOffset data := by
    rw [udpOffset, udpOffset, hether, Memory.lowNibble, Memory.lowNibble,
      hdata (etherLength data) (by omega)]
  obtain ⟨h₁, h₂, h₃, h₄, h₅, h₆, h₇, h₈, h₉, rfl⟩ := gtpv1GetHeader_eq_some_iff.mp h
  have hprotocol : etherLength data + 9 < udpOffset data + 8 + 8 := by
    rw [udpOffset]
    omega
  refine gtpv1GetHeader_eq_some_iff.mpr ⟨h₁, ?_, ?_, ?_, ?_, ?_, ?_, ?_, ?_, ?_⟩
  · rwa [htype]
  · rwa [hether]
  · rwa [hether, Memory.highNibble, hdata _ (by omega)]
  · rwa [hether, hdata _ hprotocol]
  · rwa [hudp]
  · rw [hudp, hasGtpPort, hbe16 _ (by omega), hbe16 _ (by omega)]
    exact h₇
  · rwa [hudp]
  · rwa [hudp, flagTypeVer, Memory.highNibble, hdata _ (by omega)]
  · rw [hudp]

variable {oldIp newIp : UInt32} {p : Packet} {gtp : ℕ}

theorem IsPlainGPdu.congr {data : Memory} (h : IsPlainGPdu p gtp)
    (hdata : ∀ k < gtp + 8, data k = p.data k) :
    IsPlainGPdu ⟨p.header, data⟩ gtp ∧ innerIpHeader data gtp = innerIpHeader p.data gtp := by
  obtain ⟨hgtp, hext, htype⟩ := h
  have hflags : flagOptions data gtp = flagOptions p.data gtp := by
    rw [flagOptions, flagOptions, hdata gtp (by omega)]
  have hmessage : messageType data gtp = messageType p.data gtp := hdata (gtp + 1) (by omega)
  refine ⟨⟨gtpv1GetHeader_congr hgtp hdata, ?_, ?_⟩, ?_⟩
  · rwa [hflags]
  · rwa [hmessage]
  · rw [innerIpHeader, innerIpHeader, hflags]

theorem IsPlainGPdu.putBe32 (h : IsPlainGPdu p gtp) {i : ℕ} (hi : gtp + 8 ≤ i) (ip : UInt32) :
    IsPlainGPdu ⟨p.header, p.data.putBe32 i ip⟩ gtp ∧
      innerIpHeader (p.data.putBe32 i ip) gtp = innerIpHeader p.data gtp :=
  h.congr fun _ _ ↦ Memory.putBe32_of_not_mem (by omega)

theorem gtpaddrData_of_plain (h : IsPlainGPdu p gtp) :
    gtpaddrData oldIp newIp p.header.caplen p.data
      = if p.data.be32 (ipSrc (innerIpHeader p.data gtp)) = oldIp
          then p.data.putBe32 (ipSrc (innerIpHeader p.data gtp)) newIp
        else if p.data.be32 (ipDst (innerIpHeader p.data gtp)) = oldIp
          then p.data.putBe32 (ipDst (innerIpHeader p.data gtp)) newIp
        else p.data := by
  obtain ⟨hgtp, hext, htype⟩ := h
  rw [gtpaddrData, hgtp]
  dsimp only
  rw [if_neg (not_not.mpr hext), if_pos htype]

theorem gtpaddrData_of_not_plain (h : ∀ gtp, ¬ IsPlainGPdu p gtp) :
    gtpaddrData oldIp newIp p.header.caplen p.data = p.data := by
  rw [gtpaddrData]
  split
  · rfl
  · rename_i gtp hgtp
    split
    · rfl
    · rename_i hext
      dsimp only
      rw [if_neg fun htype ↦ h gtp ⟨hgtp, not_not.mp hext, htype⟩]

/-! ## One packet -/

/-- A packet keeps the memory past its captured bytes when its inner header is captured. -/
theorem gtpaddrData_past (h : ∀ gtp, IsPlainGPdu p gtp → InnerAvoids newIp p gtp) {k : ℕ}
    (hk : p.header.caplen.toNat ≤ k) :
    gtpaddrData oldIp newIp p.header.caplen p.data k = p.data k := by
  by_cases hplain : ∃ gtp, IsPlainGPdu p gtp
  · obtain ⟨gtp, hplain⟩ := hplain
    have hcaptured := (h gtp hplain).captured
    rw [sizeofIp] at hcaptured
    rw [gtpaddrData_of_plain hplain]
    split
    · exact Memory.putBe32_of_not_mem (by rw [ipSrc]; omega)
    · split
      · exact Memory.putBe32_of_not_mem (by rw [ipDst]; omega)
      · rfl
  · rw [gtpaddrData_of_not_plain (not_exists.mp hplain)]

/-- The second run finds the address that the first run stored, and stores the old one again. -/
theorem gtpaddrData_gtpaddrData (h : ∀ gtp, IsPlainGPdu p gtp → InnerAvoids newIp p gtp) :
    gtpaddrData newIp oldIp p.header.caplen
      (gtpaddrData oldIp newIp p.header.caplen p.data) = p.data := by
  by_cases hplain : ∃ gtp, IsPlainGPdu p gtp
  · obtain ⟨gtp, hplain⟩ := hplain
    obtain ⟨-, hsource, hdestination⟩ := h gtp hplain
    have hinner := le_innerIpHeader p.data gtp
    rw [gtpaddrData_of_plain hplain]
    by_cases hsrc : p.data.be32 (ipSrc (innerIpHeader p.data gtp)) = oldIp
    · obtain ⟨hplain', hinner'⟩ := hplain.putBe32 (show gtp + 8 ≤ ipSrc (innerIpHeader p.data gtp)
        by rw [ipSrc]; omega) newIp
      rw [if_pos hsrc, gtpaddrData_of_plain hplain']
      dsimp only
      rw [hinner', if_pos (Memory.be32_putBe32 _ _), Memory.putBe32_putBe32, ← hsrc,
        Memory.putBe32_be32]
    rw [if_neg hsrc]
    by_cases hdst : p.data.be32 (ipDst (innerIpHeader p.data gtp)) = oldIp
    · obtain ⟨hplain', hinner'⟩ := hplain.putBe32 (show gtp + 8 ≤ ipDst (innerIpHeader p.data gtp)
        by rw [ipDst]; omega) newIp
      -- the source was not touched and is not the new address, so the `else` is taken again
      have hapart : ipSrc (innerIpHeader p.data gtp) + 4 ≤ ipDst (innerIpHeader p.data gtp) := by
        rw [ipSrc, ipDst]
      have hsource' : ((p.data.putBe32 (ipDst (innerIpHeader p.data gtp)) newIp).be32
          (ipSrc (innerIpHeader p.data gtp))) ≠ newIp := by
        have hsame := Memory.be32_putBe32_of_disjoint (m := p.data) (v := newIp) (Or.inl hapart)
        exact fun heq ↦ hsource (hsame.symm.trans heq)
      rw [if_pos hdst, gtpaddrData_of_plain hplain']
      dsimp only
      rw [hinner', if_neg hsource', if_pos (Memory.be32_putBe32 _ _), Memory.putBe32_putBe32,
        ← hdst, Memory.putBe32_be32]
    · rw [if_neg hdst, gtpaddrData_of_plain hplain, if_neg hsource, if_neg hdestination]
  · rw [gtpaddrData_of_not_plain (not_exists.mp hplain),
      gtpaddrData_of_not_plain (not_exists.mp hplain)]

/-! ## A whole stream -/

/-- **Address rewriting can be undone.** Where every G-PDU without extension flag has its inner IP
header captured and does not carry the new address, running `gtpaddr` with the addresses exchanged
on the result of a run restores the stream. -/
theorem gtpaddr_gtpaddr (oldIp newIp : UInt32) (packets : List Packet)
    (h : ∀ p ∈ packets, ∀ gtp, IsPlainGPdu p gtp → InnerAvoids newIp p gtp) :
    gtpaddr newIp oldIp
        (List.zipWith Record.reread (gtpaddr oldIp newIp packets) (packets.map Packet.data))
      = packets.map Packet.record := by
  rw [gtpaddr_eq_map, gtpaddr_eq_map, List.zipWith_map, List.zipWith_self, List.map_map]
  refine List.map_congr_left fun p hp ↦ ?_
  have hread : (dumpRecord p.header (gtpaddrData oldIp newIp p.header.caplen p.data)).reread p.data
      = ⟨p.header, gtpaddrData oldIp newIp p.header.caplen p.data⟩ :=
    reread_dumpRecord fun k hk ↦ gtpaddrData_past (h p hp) hk
  dsimp only [Function.comp_apply]
  rw [hread, gtpaddrData_gtpaddrData (h p hp), Packet.record]

/-- A G-PDU whose inner IP header is captured and has no addresses set. -/
def blankGPdu : Packet :=
  ⟨{ (gtpFrame 0x30 255).header with caplen := 80 }, (gtpFrame 0x30 255).data⟩

/-- A G-PDU is restored after its inner source address was replaced. -/
theorem gtpaddr_gtpaddr_blankGPdu :
    gtpaddr 0x0a000001 0
        (List.zipWith Record.reread (gtpaddr 0 0x0a000001 [blankGPdu]) [blankGPdu.data])
      = [blankGPdu.record] := by
  refine gtpaddr_gtpaddr 0 0x0a000001 [blankGPdu] ?_
  intro p hp gtp hplain
  rw [List.mem_singleton.mp hp] at hplain ⊢
  obtain rfl : gtp = 42 := Option.some.inj (hplain.1.symm.trans (by decide))
  exact ⟨by decide, by decide, by decide⟩

end DistributorMerger
