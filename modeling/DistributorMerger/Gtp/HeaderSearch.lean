import DistributorMerger.Bytes.Access
import DistributorMerger.Gtp.Header

/-!
# What the header search accepts and what it reads

The search is written a second time with its reads recorded, and both forms compute the same
offset. Two questions are then answered for every captured length and every content of memory.

The first is which frames are accepted. Where no subtraction of the bounds tests wraps, the seven
tests are together one declarative description of a frame, `GtpFrame`.

The second is when the search stays inside the capture. Three kinds of frame break it: a tag that
is announced but not captured, because the tag is read before any test for it; an IP header length
that points past the capture, because the subtraction of the next test wraps; and an IP header
length below the minimum, which lets the UDP header overlap the IP header.
-/

namespace DistributorMerger

/-! ## The search with its reads -/

/-- The test for a GTP-U or GTP-C port. A port is read again by each comparison that is reached. -/
def readGtpPort (udp : ℕ) : Access Bool := do
  let sport ← Access.be16 udp
  if sport = gtpUUdpPort then pure true else do
    let dport ← Access.be16 (udp + 2)
    if dport = gtpUUdpPort then pure true else do
      let sport ← Access.be16 udp
      if sport = gtpCUdpPort then pure true else do
        let dport ← Access.be16 (udp + 2)
        pure (decide (dport = gtpCUdpPort))

/-- The search from the GTP header on. -/
def readGtp (length offset : UInt32) : Access (Option ℕ) :=
  if length - offset < UInt32.ofNat sizeofGtpv1hdr then pure none else do
    let typever ← Access.highNibble offset.toNat
    if typever ≠ gtpV1TypeVer then pure none else pure (some offset.toNat)

/-- The search from the UDP header on. -/
def readUdp (length offset : UInt32) : Access (Option ℕ) :=
  if length - offset < UInt32.ofNat sizeofUdphdr then pure none else do
    let port ← readGtpPort offset.toNat
    if ¬ port then pure none else readGtp length (offset + UInt32.ofNat sizeofUdphdr)

/-- The search from the IP header on. -/
def readIp (length offset : UInt32) (etherType : ℕ) : Access (Option ℕ) :=
  if etherType ≠ etherTypeIp then pure none
  else if length - offset < UInt32.ofNat sizeofIp then pure none else do
    let version ← Access.highNibble offset.toNat
    if version ≠ ipVersion then pure none else do
      let protocol ← Access.byte (offset.toNat + 9)
      if protocol ≠ ipProtoUdp then pure none else do
        let hl ← Access.lowNibble offset.toNat
        readUdp length (offset + UInt32.ofNat (hl * 4))

/-- `gtpv1_get_header` with the offsets it reads. -/
def readHeader (length : UInt32) : Access (Option ℕ) :=
  if length - 0 < UInt32.ofNat sizeofEtherHeader then pure none else do
    let etherType ← Access.be16 12
    if etherType = etherTypeVlan then do
      let etherType ← Access.be16 (12 + tagEther8021QLength)
      readIp length (UInt32.ofNat (sizeofEtherHeader + tagEther8021QLength)) etherType
    else readIp length (UInt32.ofNat sizeofEtherHeader) etherType

theorem value_readGtpPort (data : Memory) (udp : ℕ) :
    (readGtpPort udp).value data = decide (hasGtpPort data udp) := by
  simp only [readGtpPort, Access.value_bind, Access.value_ite, Access.value_pure]
  simp only [Access.value_be16, hasGtpPort]
  by_cases h₁ : data.be16 udp = gtpUUdpPort
  · simp [h₁]
  by_cases h₂ : data.be16 (udp + 2) = gtpUUdpPort
  · simp [h₁, h₂]
  by_cases h₃ : data.be16 udp = gtpCUdpPort
  · simp [h₂, h₃]
  · simp only [h₁, h₂, h₃, if_false, false_or]
    rfl

theorem value_readHeader (length : UInt32) (data : Memory) :
    (readHeader length).value data = gtpv1GetHeader length data := by
  unfold readHeader gtpv1GetHeader readIp readUdp readGtp
  by_cases htag : isTagged data
  · have hvlan : data.be16 12 = etherTypeVlan := htag
    simp only [Access.value_ite, Access.value_bind, Access.value_pure]
    simp only [Access.value_be16, Access.value_highNibble, Access.value_lowNibble,
      Access.value_byte, value_readGtpPort, decide_eq_true_eq, flagTypeVer, hvlan, htag, if_true]
    rfl
  · have hvlan : ¬ data.be16 12 = etherTypeVlan := htag
    simp only [Access.value_ite, Access.value_bind, Access.value_pure]
    simp only [Access.value_be16, Access.value_highNibble, Access.value_lowNibble,
      Access.value_byte, value_readGtpPort, decide_eq_true_eq, flagTypeVer, hvlan, htag, if_false]
    rfl

/-! ## The search in plain arithmetic -/

/-- What a bounds test compares: the captured bytes behind an offset, as the unsigned subtraction
computes them. -/
def remaining (length : UInt32) (offset : ℕ) : ℕ := (length - UInt32.ofNat offset).toNat

/-- The EtherType of the payload, behind the tag if there is one. -/
def frameEtherType (data : Memory) : ℕ :=
  if isTagged data then data.be16 (12 + tagEther8021QLength) else data.be16 12

/-- The offset of the UDP header that the IP header length points to. -/
def udpOffset (data : Memory) : ℕ := etherLength data + data.lowNibble (etherLength data) * 4

theorem remaining_of_le {length : UInt32} {offset : ℕ} (h : offset ≤ length.toNat) :
    remaining length offset = length.toNat - offset := by
  have hlength := length.toNat_lt
  rw [remaining, UInt32.toNat_sub, UInt32.toNat_ofNat']
  omega

theorem remaining_of_lt {length : UInt32} {offset : ℕ} (h : length.toNat < offset)
    (hoffset : offset < 2 ^ 32) : remaining length offset = 2 ^ 32 + length.toNat - offset := by
  rw [remaining, UInt32.toNat_sub, UInt32.toNat_ofNat']
  omega

theorem udpOffset_le (data : Memory) : udpOffset data ≤ 78 := by
  have hnib := data.lowNibble_lt (etherLength data)
  rw [udpOffset]
  rcases etherLength_eq data with he | he <;> omega

theorem ether_congr {data data' : Memory} (h : ∀ k < etherLength data, data' k = data k) :
    etherLength data' = etherLength data ∧ frameEtherType data' = frameEtherType data := by
  have hether14 : 14 ≤ etherLength data := by
    rcases etherLength_eq data with he | he <;> omega
  have hbe16 : ∀ k, k + 1 < etherLength data → data'.be16 k = data.be16 k := by
    intro k hk
    rw [Memory.be16, Memory.be16, h k (by omega), h (k + 1) hk]
  have htagged : isTagged data' ↔ isTagged data := by
    rw [isTagged, isTagged, hbe16 12 (by omega)]
  refine ⟨by simp only [etherLength, htagged], ?_⟩
  by_cases htag : isTagged data
  · have hether18 : etherLength data = 18 := if_pos htag
    rw [frameEtherType, frameEtherType, if_pos htag, if_pos (htagged.mpr htag),
      hbe16 (12 + tagEther8021QLength) (by rw [hether18, tagEther8021QLength]; omega)]
  · rw [frameEtherType, frameEtherType, if_neg htag, if_neg (mt htagged.mp htag),
      hbe16 12 (by omega)]

private theorem lt_size_iff {x : UInt32} {n : ℕ} (hn : n < 2 ^ 32) :
    x < UInt32.ofNat n ↔ x.toNat < n := by
  rw [UInt32.lt_iff_toNat_lt, UInt32.toNat_ofNat_of_lt' hn]

/-- The search with offsets and sizes in plain numbers. -/
theorem gtpv1GetHeader_eq (length : UInt32) (data : Memory) :
    gtpv1GetHeader length data =
      if remaining length 0 < sizeofEtherHeader then none
      else if frameEtherType data ≠ etherTypeIp then none
      else if remaining length (etherLength data) < sizeofIp then none
      else if data.highNibble (etherLength data) ≠ ipVersion then none
      else if data (etherLength data + 9) ≠ ipProtoUdp then none
      else if remaining length (udpOffset data) < sizeofUdphdr then none
      else if ¬ hasGtpPort data (udpOffset data) then none
      else if remaining length (udpOffset data + sizeofUdphdr) < sizeofGtpv1hdr then none
      else if flagTypeVer data (udpOffset data + sizeofUdphdr) ≠ gtpV1TypeVer then none
      else some (udpOffset data + sizeofUdphdr) := by
  have hudp := udpOffset_le data
  have hether : (if isTagged data then UInt32.ofNat (sizeofEtherHeader + tagEther8021QLength)
      else UInt32.ofNat sizeofEtherHeader) = UInt32.ofNat (etherLength data) := by
    rw [etherLength]
    split <;> rfl
  have hetherNat : (UInt32.ofNat (etherLength data)).toNat = etherLength data := by
    refine UInt32.toNat_ofNat_of_lt' ?_
    rcases etherLength_eq data with he | he <;> rw [he] <;> norm_num
  have hudpOffset : UInt32.ofNat (etherLength data)
      + UInt32.ofNat (data.lowNibble (etherLength data) * 4) = UInt32.ofNat (udpOffset data) := by
    rw [udpOffset, UInt32.ofNat_add]
  have hudpNat : (UInt32.ofNat (udpOffset data)).toNat = udpOffset data :=
    UInt32.toNat_ofNat_of_lt' (show udpOffset data < 2 ^ 32 by omega)
  have hgtpOffset : UInt32.ofNat (udpOffset data) + UInt32.ofNat sizeofUdphdr
      = UInt32.ofNat (udpOffset data + sizeofUdphdr) := by
    rw [UInt32.ofNat_add]
  have hgtpNat : (UInt32.ofNat (udpOffset data + sizeofUdphdr)).toNat
      = udpOffset data + sizeofUdphdr :=
    UInt32.toNat_ofNat_of_lt' (show udpOffset data + 8 < 2 ^ 32 by omega)
  -- The source adds offsets in 32 bits; none of them wraps, so each test reads in ℕ.
  unfold gtpv1GetHeader
  simp only [hether, hetherNat, hudpOffset, hudpNat, hgtpOffset, hgtpNat]
  simp only [lt_size_iff (show sizeofEtherHeader < 2 ^ 32 by decide),
    lt_size_iff (show sizeofIp < 2 ^ 32 by decide),
    lt_size_iff (show sizeofUdphdr < 2 ^ 32 by decide),
    lt_size_iff (show sizeofGtpv1hdr < 2 ^ 32 by decide)]
  rfl

@[simp] theorem remaining_zero (length : UInt32) : remaining length 0 = length.toNat := by
  rw [remaining_of_le (Nat.zero_le _), Nat.sub_zero]

theorem gtpv1GetHeader_eq_some_iff {length : UInt32} {data : Memory} {gtp : ℕ} :
    gtpv1GetHeader length data = some gtp ↔
      14 ≤ length.toNat ∧ frameEtherType data = etherTypeIp ∧
      20 ≤ remaining length (etherLength data) ∧ data.highNibble (etherLength data) = ipVersion ∧
      data (etherLength data + 9) = ipProtoUdp ∧ 8 ≤ remaining length (udpOffset data) ∧
      hasGtpPort data (udpOffset data) ∧ 8 ≤ remaining length (udpOffset data + 8) ∧
      flagTypeVer data (udpOffset data + 8) = gtpV1TypeVer ∧ udpOffset data + 8 = gtp := by
  rw [gtpv1GetHeader_eq]
  simp only [Option.ite_none_left_eq_some, not_lt, not_not, Option.some.injEq]
  simp only [remaining_zero, sizeofEtherHeader, sizeofIp, sizeofUdphdr, sizeofGtpv1hdr]

/-! ## The frames that are accepted -/

/-- A frame of `n` captured bytes with a GTPv1 header: Ethernet with an optional tag, IPv4, UDP to
or from a GTP port, and a GTPv1 header, all captured. -/
structure GtpFrame (n : ℕ) (data : Memory) : Prop where
  /-- The Ethernet header is captured. -/
  ether : 14 ≤ n
  /-- The payload is IPv4. -/
  etherType : frameEtherType data = etherTypeIp
  /-- The mandatory IP header is captured. -/
  ip : etherLength data + 20 ≤ n
  /-- The version field is that of IPv4. -/
  version : data.highNibble (etherLength data) = ipVersion
  /-- The protocol is UDP. -/
  protocol : data (etherLength data + 9) = ipProtoUdp
  /-- The UDP header is captured. -/
  udp : udpOffset data + 8 ≤ n
  /-- One of the ports is a GTP port. -/
  port : hasGtpPort data (udpOffset data)
  /-- The GTP header is captured. -/
  gtp : udpOffset data + 8 + 8 ≤ n
  /-- The first octet of the GTP header says version 1 and protocol type GTP. -/
  typever : flagTypeVer data (udpOffset data + 8) = gtpV1TypeVer

/-- Where no subtraction of the bounds tests wraps, the tests describe the frame. -/
theorem isSome_iff_gtpFrame {length : UInt32} {data : Memory}
    (htag : 14 ≤ length.toNat → isTagged data → 18 ≤ length.toNat)
    (hip : etherLength data + 20 ≤ length.toNat → udpOffset data ≤ length.toNat) :
    (gtpv1GetHeader length data).isSome ↔ GtpFrame length.toNat data := by
  have hether : 14 ≤ length.toNat → etherLength data ≤ length.toNat := by
    intro h
    rw [etherLength]
    split
    · exact htag h ‹_›
    · exact h
  rw [Option.isSome_iff_exists]
  simp only [gtpv1GetHeader_eq_some_iff]
  constructor
  · rintro ⟨-, h₁, h₂, h₃, h₄, h₅, h₆, h₇, h₈, h₉, -⟩
    rw [remaining_of_le (hether h₁)] at h₃
    have hfits : etherLength data + 20 ≤ length.toNat := by
      have := hether h₁
      omega
    rw [remaining_of_le (hip hfits)] at h₆
    have hudp : udpOffset data + 8 ≤ length.toNat := by
      have := hip hfits
      omega
    rw [remaining_of_le hudp] at h₈
    exact ⟨h₁, h₂, hfits, h₄, h₅, hudp, h₇, by omega, h₉⟩
  · rintro ⟨h₁, h₂, h₃, h₄, h₅, h₆, h₇, h₈, h₉⟩
    refine ⟨_, h₁, h₂, ?_, h₄, h₅, ?_, h₇, ?_, h₉, rfl⟩ <;> rw [remaining_of_le (by omega)]
      <;> omega

/-- **Exact acceptance.** Where no subtraction of the bounds tests wraps, the search returns a
header exactly for the frames described by `GtpFrame`, and the header it returns stands behind the
Ethernet, IP and UDP headers. -/
theorem gtpv1GetHeader_isSome_iff_gtpFrame (length : UInt32) (data : Memory)
    (htag : 14 ≤ length.toNat → isTagged data → 18 ≤ length.toNat)
    (hip : etherLength data + 20 ≤ length.toNat → udpOffset data ≤ length.toNat) :
    ((gtpv1GetHeader length data).isSome ↔ GtpFrame length.toNat data) ∧
      ∀ gtp, gtpv1GetHeader length data = some gtp → gtp = udpOffset data + 8 := by
  refine ⟨isSome_iff_gtpFrame htag hip, ?_⟩
  intro gtp hgtp
  exact (gtpv1GetHeader_eq_some_iff.mp hgtp).2.2.2.2.2.2.2.2.2.symm

/-- A G-PDU of 60 captured bytes is one of the frames on which nothing wraps. -/
theorem gtpv1GetHeader_isSome_gtpFrame :
    (gtpv1GetHeader 60 (gtpFrame 0x30 255).data).isSome ↔ GtpFrame 60 (gtpFrame 0x30 255).data :=
  (gtpv1GetHeader_isSome_iff_gtpFrame 60 (gtpFrame 0x30 255).data (fun _ _ ↦ by decide)
    (fun _ ↦ by decide)).1

/-! ## The bytes that are read -/

section Reads

variable {n : ℕ} {length : UInt32} {data : Memory}

theorem below_readGtpPort {udp : ℕ} (h : udp + 3 < n) :
    Access.Below n data (readGtpPort udp) := by
  unfold readGtpPort
  simp only [Access.below_bind, Access.below_guard, Access.below_be16, Access.below_pure, and_true]
  exact ⟨by omega, fun _ ↦ ⟨by omega, fun _ ↦ ⟨by omega, fun _ ↦ by omega⟩⟩⟩

theorem lt_of_below_readGtpPort {udp : ℕ} (h : Access.Below n data (readGtpPort udp)) :
    udp < n := by
  unfold readGtpPort at h
  rw [Access.below_bind, Access.below_be16] at h
  omega

theorem below_readGtp {gtp : ℕ} (hgtp : gtp < 2 ^ 32) :
    Access.Below n data (readGtp length (UInt32.ofNat gtp)) ↔
      (8 ≤ remaining length gtp → gtp < n) := by
  unfold readGtp
  rw [Access.below_guard, lt_size_iff (show sizeofGtpv1hdr < 2 ^ 32 by decide), not_lt,
    UInt32.toNat_ofNat_of_lt' hgtp]
  simp only [Access.below_bind, Access.below_highNibble, Access.below_guard, Access.below_pure,
    implies_true, and_true]
  rfl

theorem below_readUdp {udp : ℕ} (hudp : udp + 8 < 2 ^ 32) :
    Access.Below n data (readUdp length (UInt32.ofNat udp)) ↔
      (8 ≤ remaining length udp → Access.Below n data (readGtpPort udp) ∧
        (hasGtpPort data udp → 8 ≤ remaining length (udp + 8) → udp + 8 < n)) := by
  unfold readUdp
  rw [Access.below_guard, lt_size_iff (show sizeofUdphdr < 2 ^ 32 by decide), not_lt,
    UInt32.toNat_ofNat_of_lt' (show udp < 2 ^ 32 by omega), Access.below_bind, Access.below_guard,
    value_readGtpPort, decide_eq_true_eq, not_not, ← UInt32.ofNat_add]
  rw [below_readGtp (show udp + sizeofUdphdr < 2 ^ 32 from hudp)]
  rfl

theorem below_readIp {ip etherType : ℕ} (hip : ip ≤ 18) :
    Access.Below n data (readIp length (UInt32.ofNat ip) etherType) ↔
      (etherType = etherTypeIp → 20 ≤ remaining length ip → ip < n ∧
        (data.highNibble ip = ipVersion → ip + 9 < n ∧
          (data (ip + 9) = ipProtoUdp → ip < n ∧
            Access.Below n data
              (readUdp length (UInt32.ofNat (ip + data.lowNibble ip * 4)))))) := by
  unfold readIp
  rw [Access.below_guard, not_not, Access.below_guard,
    lt_size_iff (show sizeofIp < 2 ^ 32 by decide), not_lt,
    UInt32.toNat_ofNat_of_lt' (show ip < 2 ^ 32 by omega)]
  simp only [Access.below_bind, Access.below_highNibble, Access.below_guard, Access.below_byte,
    Access.below_lowNibble, not_not, UInt32.ofNat_add]
  rfl

theorem below_readHeader :
    Access.Below n data (readHeader length) ↔
      (14 ≤ length.toNat → 13 < n ∧ (isTagged data → 17 < n) ∧
        Access.Below n data
          (readIp length (UInt32.ofNat (etherLength data)) (frameEtherType data))) := by
  unfold readHeader
  rw [Access.below_guard, lt_size_iff (show sizeofEtherHeader < 2 ^ 32 by decide), not_lt,
    UInt32.sub_zero, Access.below_bind, Access.below_be16, Access.value_be16]
  by_cases htag : isTagged data
  · have hvlan : data.be16 12 = etherTypeVlan := htag
    rw [if_pos hvlan, Access.below_bind, Access.below_be16, Access.value_be16, etherLength,
      if_pos htag, frameEtherType, if_pos htag]
    simp only [htag, true_imp_iff]
    rfl
  · have hvlan : ¬ data.be16 12 = etherTypeVlan := htag
    rw [if_neg hvlan, etherLength, if_neg htag, frameEtherType, if_neg htag]
    simp only [htag, false_imp_iff, true_and]
    rfl

end Reads

/-! ## Staying inside the capture -/

/-- The headers of a frame whose GTP header was found at `gtp`, one behind the other and inside the
`n` captured bytes: Ethernet, IP of at least 20 bytes, UDP and GTP. -/
structure NestedHeaders (n : ℕ) (data : Memory) (gtp : ℕ) : Prop where
  /-- The IP header is long enough. -/
  ip : etherLength data + 20 ≤ udpOffset data
  /-- The GTP header follows the UDP header. -/
  udp : udpOffset data + 8 = gtp
  /-- The GTP header is captured. -/
  gtp : gtp + 8 ≤ n

/-- The search reads captured bytes only, and the headers it walked to a header that it returns are
nested in the capture. -/
structure StaysInside (length : UInt32) (data : Memory) : Prop where
  /-- No byte past the capture is read. -/
  reads : ∀ k ∈ (readHeader length).reads data, k < length.toNat
  /-- The headers are nested. -/
  nested : ∀ gtp, gtpv1GetHeader length data = some gtp → NestedHeaders length.toNat data gtp

/-- An IPv4 header that is captured and says that UDP follows. -/
structure UdpFrame (n : ℕ) (data : Memory) : Prop where
  /-- The Ethernet header is captured. -/
  ether : 14 ≤ n
  /-- The payload is IPv4. -/
  etherType : frameEtherType data = etherTypeIp
  /-- The mandatory IP header is captured. -/
  ip : etherLength data + 20 ≤ n
  /-- The version field is that of IPv4. -/
  version : data.highNibble (etherLength data) = ipVersion
  /-- The protocol is UDP. -/
  protocol : data (etherLength data + 9) = ipProtoUdp

/-- The frame is none of the three kinds that the bounds tests miss. -/
structure WellSized (n : ℕ) (data : Memory) : Prop where
  /-- A tag that is announced is captured. -/
  tag : 14 ≤ n → isTagged data → 18 ≤ n
  /-- The IP header length of a UDP packet does not point past the capture. -/
  captured : UdpFrame n data → udpOffset data ≤ n
  /-- The IP header length of a GTP frame is not below the minimum. -/
  minimum : GtpFrame n data → 5 ≤ data.lowNibble (etherLength data)

theorem GtpFrame.udpFrame {n : ℕ} {data : Memory} (h : GtpFrame n data) : UdpFrame n data :=
  ⟨h.ether, h.etherType, h.ip, h.version, h.protocol⟩

variable {length : UInt32} {data : Memory}

theorem WellSized.etherLength_le (h : WellSized length.toNat data) (h14 : 14 ≤ length.toNat) :
    etherLength data ≤ length.toNat := by
  rw [etherLength]
  split
  · exact h.tag h14 ‹_›
  · exact h14

/-- On a well-sized frame every test comes before the bytes that it guards. -/
theorem WellSized.below (h : WellSized length.toNat data) :
    Access.Below length.toNat data (readHeader length) := by
  have hudpOffset := udpOffset_le data
  rw [below_readHeader]
  intro h14
  have hether := h.etherLength_le h14
  refine ⟨h14, fun htag ↦ h.tag h14 htag, ?_⟩
  rw [below_readIp (by rcases etherLength_eq data with he | he <;> omega)]
  intro htype hip
  rw [remaining_of_le hether] at hip
  refine ⟨by omega, fun hversion ↦ ⟨by omega, fun hprotocol ↦ ⟨by omega, ?_⟩⟩⟩
  have hudp : udpOffset data ≤ length.toNat :=
    h.captured ⟨h14, htype, by omega, hversion, hprotocol⟩
  rw [← udpOffset, below_readUdp (by omega), remaining_of_le hudp]
  refine fun hfits ↦ ⟨below_readGtpPort (by omega), fun _ hgtp ↦ ?_⟩
  rw [remaining_of_le (by omega)] at hgtp
  omega

theorem StaysInside.tag (h : StaysInside length data) (h14 : 14 ≤ length.toNat)
    (htag : isTagged data) : 18 ≤ length.toNat :=
  (below_readHeader.mp h.reads h14).2.1 htag

/-- If the IP header length points past the capture, the wrapped test lets the ports be read. -/
theorem StaysInside.captured (h : StaysInside length data) (hudp : UdpFrame length.toNat data) :
    udpOffset data ≤ length.toNat := by
  have hudpOffset := udpOffset_le data
  have hip := hudp.ip
  have hread := (below_readHeader.mp h.reads hudp.ether).2.2
  rw [below_readIp (by rcases etherLength_eq data with he | he <;> omega)] at hread
  have hroom : 20 ≤ remaining length (etherLength data) := by
    rw [remaining_of_le (by omega)]
    omega
  have hread := (((hread hudp.etherType hroom).2 hudp.version).2 hudp.protocol).2
  rw [← udpOffset, below_readUdp (by omega)] at hread
  by_contra hpast
  rw [not_le] at hpast
  have hwrap : 8 ≤ remaining length (udpOffset data) := by
    rw [remaining_of_lt hpast (by omega)]
    omega
  have := lt_of_below_readGtpPort (hread hwrap).1
  omega

/-- **When the header search stays inside the capture.** It does so exactly on the well-sized
frames: those whose tag is captured if it is announced, whose IP header length does not point past
the capture if UDP is announced, and whose IP header length is at least five if the frame carries a
GTP header. -/
theorem staysInside_iff_wellSized (length : UInt32) (data : Memory) :
    StaysInside length data ↔ WellSized length.toNat data := by
  constructor
  · intro h
    refine ⟨h.tag, h.captured, fun hframe ↦ ?_⟩
    -- no subtraction wraps, so the frame is accepted and its headers are nested
    have haccept := (isSome_iff_gtpFrame h.tag fun _ ↦ h.captured hframe.udpFrame).mpr hframe
    obtain ⟨gtp, hgtp⟩ := Option.isSome_iff_exists.mp haccept
    have hnested := (h.nested gtp hgtp).ip
    rw [udpOffset] at hnested
    omega
  · intro h
    refine ⟨h.below, fun gtp hgtp ↦ ?_⟩
    obtain ⟨h14, htype, hip, hversion, hprotocol, hudp, hport, hfits, htypever, rfl⟩ :=
      gtpv1GetHeader_eq_some_iff.mp hgtp
    have hether := h.etherLength_le h14
    rw [remaining_of_le hether] at hip
    have hcaptured := h.captured ⟨h14, htype, by omega, hversion, hprotocol⟩
    rw [remaining_of_le hcaptured] at hudp
    rw [remaining_of_le (by omega)] at hfits
    have hminimum := h.minimum
      ⟨h14, htype, by omega, hversion, hprotocol, by omega, hport, by omega, htypever⟩
    refine ⟨?_, rfl, by omega⟩
    rw [udpOffset]
    omega

/-- A UDP frame of 60 captured bytes whose IP header claims 60 bytes is read past its end. -/
theorem not_staysInside_long_ip :
    ¬ StaysInside 60 (Function.update (gtpFrame 0x30 255).data 14 0x4f) := by
  intro h
  have hread := h.reads 74 (by decide)
  exact absurd hread (by decide)

end DistributorMerger
