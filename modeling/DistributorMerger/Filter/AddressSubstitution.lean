import DistributorMerger.Bytes.Access
import DistributorMerger.Filter.Gtpaddr

/-!
# What `gtpaddr` substitutes and what it touches

The two addresses of the inner IP header are looked at in turn, and the second only when the first
is not the old address. So a packet that is sent from the old address to itself keeps its
destination. The addresses are read and written in place, up to twenty bytes behind a GTP header of
which only the mandatory part is known to be captured.
-/

namespace DistributorMerger

/-! ## Exact substitution -/

/-- The packet is dumped once, with its header; in a G-PDU without extension whose inner IP header
is captured each of the two addresses that was the old one is the new one, and every other captured
byte is as it was; any other packet that `gtpaddr` does not look into is dumped unchanged. -/
structure SubstitutesExactly (oldIp newIp : UInt32) (p : Packet) : Prop where
  /-- One record is dumped, under the header that was received. -/
  dumped : ∀ out, gtpaddrPacketHandler oldIp newIp out p
    = out ++ [dumpRecord p.header (gtpaddrData oldIp newIp p.header.caplen p.data)]
  /-- The inner source address. -/
  source : ∀ gtp, IsPlainGPdu p gtp →
    innerIpHeader p.data gtp + sizeofIp ≤ p.header.caplen.toNat →
      (gtpaddrData oldIp newIp p.header.caplen p.data).be32 (ipSrc (innerIpHeader p.data gtp))
        = if p.data.be32 (ipSrc (innerIpHeader p.data gtp)) = oldIp then newIp
          else p.data.be32 (ipSrc (innerIpHeader p.data gtp))
  /-- The inner destination address. -/
  destination : ∀ gtp, IsPlainGPdu p gtp →
    innerIpHeader p.data gtp + sizeofIp ≤ p.header.caplen.toNat →
      (gtpaddrData oldIp newIp p.header.caplen p.data).be32 (ipDst (innerIpHeader p.data gtp))
        = if p.data.be32 (ipDst (innerIpHeader p.data gtp)) = oldIp then newIp
          else p.data.be32 (ipDst (innerIpHeader p.data gtp))
  /-- The bytes in front of and behind the two addresses. -/
  others : ∀ gtp, IsPlainGPdu p gtp →
    innerIpHeader p.data gtp + sizeofIp ≤ p.header.caplen.toNat →
      ∀ k < p.header.caplen.toNat,
        ¬ (ipSrc (innerIpHeader p.data gtp) ≤ k ∧ k < ipDst (innerIpHeader p.data gtp) + 4) →
          gtpaddrData oldIp newIp p.header.caplen p.data k = p.data k
  /-- The packets that are not looked into. -/
  untouched : (∀ gtp, ¬ IsPlainGPdu p gtp) →
    dumpRecord p.header (gtpaddrData oldIp newIp p.header.caplen p.data) = p.record

theorem ipSrc_add_four (ip : ℕ) : ipSrc ip + 4 = ipDst ip := by
  rw [ipSrc, ipDst]

/-- Where at most one address is the old one, the source comes first without loss. -/
theorem substitutesExactly_of_not_both {oldIp newIp : UInt32} {p : Packet}
    (h : ∀ gtp, IsPlainGPdu p gtp → innerIpHeader p.data gtp + sizeofIp ≤ p.header.caplen.toNat →
      p.data.be32 (ipSrc (innerIpHeader p.data gtp)) = oldIp →
      p.data.be32 (ipDst (innerIpHeader p.data gtp)) = oldIp → oldIp = newIp) :
    SubstitutesExactly oldIp newIp p := by
  refine ⟨fun _ ↦ rfl, ?_, ?_, ?_, ?_⟩
  · intro gtp hplain _
    have hapart := ipSrc_add_four (innerIpHeader p.data gtp)
    rw [gtpaddrData_of_plain hplain]
    by_cases hsrc : p.data.be32 (ipSrc (innerIpHeader p.data gtp)) = oldIp
    · rw [if_pos hsrc, if_pos hsrc, Memory.be32_putBe32]
    · rw [if_neg hsrc, if_neg hsrc]
      split
      · exact Memory.be32_putBe32_of_disjoint (.inl hapart.le)
      · rfl
  · intro gtp hplain hcaptured
    have hapart := ipSrc_add_four (innerIpHeader p.data gtp)
    rw [gtpaddrData_of_plain hplain]
    by_cases hsrc : p.data.be32 (ipSrc (innerIpHeader p.data gtp)) = oldIp
    · rw [if_pos hsrc, Memory.be32_putBe32_of_disjoint (.inr hapart.le)]
      split
      · rename_i hdst
        rw [hdst]
        exact h gtp hplain hcaptured hsrc hdst
      · rfl
    · rw [if_neg hsrc]
      by_cases hdst : p.data.be32 (ipDst (innerIpHeader p.data gtp)) = oldIp
      · rw [if_pos hdst, if_pos hdst, Memory.be32_putBe32]
      · rw [if_neg hdst, if_neg hdst]
  · intro gtp hplain _ k _ hk
    have hapart := ipSrc_add_four (innerIpHeader p.data gtp)
    rw [gtpaddrData_of_plain hplain]
    split
    · exact Memory.putBe32_of_not_mem (by omega)
    · split
      · exact Memory.putBe32_of_not_mem (by omega)
      · rfl
  · intro hplain
    rw [gtpaddrData_of_not_plain hplain, Packet.record]

/-- **When address rewriting is exact substitution.** It is exactly when no G-PDU without extension
that has its inner IP header captured is sent from the old address to the old address, unless the
new address is the old one. -/
theorem substitutesExactly_iff (oldIp newIp : UInt32) (p : Packet) :
    SubstitutesExactly oldIp newIp p ↔
      ∀ gtp, IsPlainGPdu p gtp → innerIpHeader p.data gtp + sizeofIp ≤ p.header.caplen.toNat →
        p.data.be32 (ipSrc (innerIpHeader p.data gtp)) = oldIp →
        p.data.be32 (ipDst (innerIpHeader p.data gtp)) = oldIp → oldIp = newIp := by
  refine ⟨fun h gtp hplain hcaptured hsrc hdst ↦ ?_, substitutesExactly_of_not_both⟩
  have hapart := ipSrc_add_four (innerIpHeader p.data gtp)
  have hdestination := h.destination gtp hplain hcaptured
  rwa [gtpaddrData_of_plain hplain, if_pos hsrc,
    Memory.be32_putBe32_of_disjoint (.inr hapart.le), if_pos hdst, hdst] at hdestination

/-- A packet from the address 0.0.0.0 to itself keeps its destination when that address is
replaced. -/
theorem not_substitutesExactly_blankGPdu : ¬ SubstitutesExactly 0 0x0a000001 blankGPdu := by
  intro h
  have hdestination := h.destination 42 ⟨by decide, by decide, by decide⟩ (by decide)
  exact absurd hdestination (by decide)

/-! ## The bytes that are touched -/

/-- The accesses of the packet handler through `inner_ip_header`, when that is at `inner`. -/
def accessAddresses (oldIp newIp : UInt32) (inner : ℕ) : Access Memory := do
  let src ← Access.be32 (ipSrc inner)
  if src = oldIp then Access.putBe32 (ipSrc inner) newIp
  else do
    let dst ← Access.be32 (ipDst inner)
    if dst = oldIp then Access.putBe32 (ipDst inner) newIp else Access.memory

/-- The packet handler of `gtpaddr`, with what it reads and writes through `inner_ip_header`. -/
def accessInner (oldIp newIp : UInt32) (length : UInt32) : Access Memory := fun data ↦
  match gtpv1GetHeader length data with
  | none => Access.memory data
  | some gtp =>
    if gtpExtFlag (flagOptions data gtp) ≠ 0 then Access.memory data
    else if messageType data gtp = gtpv1MtGPdu then
      accessAddresses oldIp newIp (innerIpHeader data gtp) data
    else Access.memory data

theorem value_accessAddresses (oldIp newIp : UInt32) (inner : ℕ) (data : Memory) :
    (accessAddresses oldIp newIp inner).value data
      = if data.be32 (ipSrc inner) = oldIp then data.putBe32 (ipSrc inner) newIp
        else if data.be32 (ipDst inner) = oldIp then data.putBe32 (ipDst inner) newIp
        else data := by
  rw [accessAddresses, Access.value_bind, Access.value_be32]
  by_cases hsrc : data.be32 (ipSrc inner) = oldIp
  · rw [if_pos hsrc, if_pos hsrc, Access.value_putBe32]
  rw [if_neg hsrc, if_neg hsrc, Access.value_bind, Access.value_be32]
  by_cases hdst : data.be32 (ipDst inner) = oldIp
  · rw [if_pos hdst, if_pos hdst, Access.value_putBe32]
  · rw [if_neg hdst, if_neg hdst, Access.value_memory]

section Accesses

variable {oldIp newIp : UInt32} {p : Packet} {gtp : ℕ}

theorem accessInner_of_plain (h : IsPlainGPdu p gtp) :
    accessInner oldIp newIp p.header.caplen p.data
      = accessAddresses oldIp newIp (innerIpHeader p.data gtp) p.data := by
  obtain ⟨hgtp, hext, htype⟩ := h
  rw [accessInner, hgtp]
  dsimp only
  rw [if_neg (not_not.mpr hext), if_pos htype]

theorem accessInner_of_not_plain (h : ∀ gtp, ¬ IsPlainGPdu p gtp) :
    accessInner oldIp newIp p.header.caplen p.data = Access.memory p.data := by
  rw [accessInner]
  split
  · rfl
  · rename_i gtp hgtp
    split
    · rfl
    · rename_i hext
      rw [if_neg fun htype ↦ h gtp ⟨hgtp, not_not.mp hext, htype⟩]

theorem value_accessInner :
    (accessInner oldIp newIp p.header.caplen).value p.data
      = gtpaddrData oldIp newIp p.header.caplen p.data := by
  by_cases hplain : ∃ gtp, IsPlainGPdu p gtp
  · obtain ⟨gtp, hplain⟩ := hplain
    rw [Access.value_congr (accessInner_of_plain hplain), value_accessAddresses,
      gtpaddrData_of_plain hplain]
  · rw [Access.value_congr (accessInner_of_not_plain (not_exists.mp hplain)),
      gtpaddrData_of_not_plain (not_exists.mp hplain), Access.value_memory]

end Accesses

/-- The source address is read whatever it is; the destination address is reached when the source
address is not the old one. -/
theorem below_accessAddresses {oldIp newIp : UInt32} {inner n : ℕ} {data : Memory} :
    Access.Below n data (accessAddresses oldIp newIp inner) ↔
      inner + (if data.be32 (ipSrc inner) = oldIp then 16 else 20) ≤ n := by
  unfold accessAddresses
  rw [Access.below_bind, Access.below_be32, Access.value_be32]
  by_cases hsrc : data.be32 (ipSrc inner) = oldIp
  · rw [if_pos hsrc, if_pos hsrc, Access.below_putBe32, ipSrc]
    omega
  · rw [if_neg hsrc, if_neg hsrc, Access.below_bind, Access.below_be32, Access.value_be32]
    have hlast : Access.Below n data
        (if data.be32 (ipDst inner) = oldIp then Access.putBe32 (ipDst inner) newIp
          else Access.memory) ↔ (data.be32 (ipDst inner) = oldIp → ipDst inner + 3 < n) := by
      split
      · rename_i hdst
        rw [Access.below_putBe32]
        exact ⟨fun hlt _ ↦ hlt, fun hlt ↦ hlt hdst⟩
      · rename_i hdst
        exact ⟨fun _ h ↦ absurd h hdst, fun _ ↦ Access.below_memory⟩
    rw [hlast, ipSrc, ipDst]
    omega

/-- **When address rewriting stays inside the capture.** It does exactly when the inner IP header of
a G-PDU without extension is captured up to the end of its source address, if that is the old
address, and up to the end of its destination address otherwise. -/
theorem accessInner_captured_iff (oldIp newIp : UInt32) (p : Packet) :
    (∀ k ∈ (accessInner oldIp newIp p.header.caplen).reads p.data, k < p.header.caplen.toNat) ↔
      ∀ gtp, IsPlainGPdu p gtp →
        innerIpHeader p.data gtp
          + (if p.data.be32 (ipSrc (innerIpHeader p.data gtp)) = oldIp then 16 else 20)
            ≤ p.header.caplen.toNat := by
  change Access.Below p.header.caplen.toNat p.data _ ↔ _
  by_cases hplain : ∃ gtp, IsPlainGPdu p gtp
  · obtain ⟨gtp, hplain⟩ := hplain
    rw [Access.below_congr (accessInner_of_plain hplain), below_accessAddresses]
    refine ⟨fun h gtp' hplain' ↦ ?_, fun h ↦ h gtp hplain⟩
    obtain rfl : gtp = gtp' := Option.some.inj (hplain.1.symm.trans hplain'.1)
    exact h
  · rw [Access.below_congr (accessInner_of_not_plain (not_exists.mp hplain))]
    exact ⟨fun _ gtp h ↦ absurd ⟨gtp, h⟩ hplain, fun _ ↦ Access.below_memory⟩

/-- In a G-PDU of 60 captured bytes the inner source address is not captured. -/
theorem accessInner_reads_past_gpdu :
    ¬ ∀ k ∈ (accessInner 0 0 (gtpFrame 0x30 255).header.caplen).reads (gtpFrame 0x30 255).data,
      k < (gtpFrame 0x30 255).header.caplen.toNat := by
  intro h
  exact absurd (h 62 (by decide)) (by decide)

end DistributorMerger
