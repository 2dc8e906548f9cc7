import DistributorMerger.Pcap.Packet

/-!
# Searching a captured frame for a GTPv1 header

`gtpv1_get_header` walks an Ethernet header with an optional 802.1Q tag, an IPv4 header whose
length comes from the packet, and a UDP header, and returns a pointer to the GTP header behind
them. The pointer is represented by its offset from the start of the frame.

Every bounds test of the source has the form `length - offset < size` on `unsigned int`, so the
subtraction wraps when the offset has already passed the length. `UInt32` keeps that behaviour.
Bit fields are laid out low bits first.
-/

namespace DistributorMerger

/-! ## Constants of the source -/

/-- `ETHERTYPE_VLAN`. -/
def etherTypeVlan : ℕ := 0x8100

/-- `ETHERTYPE_IP`. -/
def etherTypeIp : ℕ := 0x0800

/-- `IPVERSION`. -/
def ipVersion : ℕ := 4

/-- `IPPROTO_UDP`. -/
def ipProtoUdp : UInt8 := 17

/-- `GTP_C_UDP_PORT`. -/
def gtpCUdpPort : ℕ := 2123

/-- `GTP_U_UDP_PORT`. -/
def gtpUUdpPort : ℕ := 2152

/-- `GTP_V1_TYPEVER`: GTP version 1 and protocol type GTP. -/
def gtpV1TypeVer : ℕ := 3

/-- `TAG_ETHER_802_1_Q_LENGTH`. -/
def tagEther8021QLength : ℕ := 4

/-- `sizeof(struct ether_header)`. -/
def sizeofEtherHeader : ℕ := 14

/-- `sizeof(struct ip)`. -/
def sizeofIp : ℕ := 20

/-- `sizeof(struct udphdr)`. -/
def sizeofUdphdr : ℕ := 8

/-- `sizeof(struct gtpv1hdr)`, the mandatory part of the header. -/
def sizeofGtpv1hdr : ℕ := 8

/-- `sizeof(struct gtpv1hdropt)`, the part present when any option flag is set. -/
def sizeofGtpv1hdropt : ℕ := 4

/-- `GTPV1_MT_G_PDU`: tunnelled user traffic. -/
def gtpv1MtGPdu : UInt8 := 255

/-- `GTPV1_MT_CREATE_PDP_CONTEXT_REQUEST`. -/
def gtpv1MtCreatePdpContextRequest : UInt8 := 16

/-- `GTPV1_MT_CREATE_PDP_CONTEXT_RESPONSE`. -/
def gtpv1MtCreatePdpContextResponse : UInt8 := 17

/-! ## The fields of `struct gtpv1hdr` -/

/-- `flag_options`: the extension, sequence number and N-PDU flags of the header at `gtp`. -/
def flagOptions (data : Memory) (gtp : ℕ) : ℕ := (data gtp).toNat % 8

/-- `flag_typever`: the protocol type and version of the header at `gtp`. -/
def flagTypeVer (data : Memory) (gtp : ℕ) : ℕ := data.highNibble gtp

/-- `message_type`. -/
def messageType (data : Memory) (gtp : ℕ) : UInt8 := data (gtp + 1)

/-- `ntohs(length)`: the length after the mandatory header, optional fields included. -/
def messageLength (data : Memory) (gtp : ℕ) : ℕ := data.be16 (gtp + 2)

/-- `ntohl(teid)`. -/
def headerTeid (data : Memory) (gtp : ℕ) : UInt32 := data.be32 (gtp + 4)

/-- `GTP_TYPE`. -/
def gtpType (flagTypeVer : ℕ) : ℕ := flagTypeVer / 2

/-- `GTP_VER`. -/
def gtpVer (flagTypeVer : ℕ) : ℕ := flagTypeVer % 2

/-- `GTP_EXT_FLAG`. -/
def gtpExtFlag (flagOptions : ℕ) : ℕ := flagOptions / 4 % 2

/-- `GTP_SEQ_FLAG`. -/
def gtpSeqFlag (flagOptions : ℕ) : ℕ := flagOptions / 2 % 2

/-- `GTP_NPDU_FLAG`. -/
def gtpNpduFlag (flagOptions : ℕ) : ℕ := flagOptions % 2

/-! ## The search -/

/-- The UDP header at `udp` names a GTP-U or GTP-C port on at least one side. -/
def hasGtpPort (data : Memory) (udp : ℕ) : Prop :=
  data.be16 udp = gtpUUdpPort ∨ data.be16 (udp + 2) = gtpUUdpPort ∨
    data.be16 udp = gtpCUdpPort ∨ data.be16 (udp + 2) = gtpCUdpPort

instance (data : Memory) (udp : ℕ) : Decidable (hasGtpPort data udp) := by
  unfold hasGtpPort
  infer_instance

/-- The EtherType says that an 802.1Q tag follows. -/
def isTagged (data : Memory) : Prop := data.be16 12 = etherTypeVlan

instance (data : Memory) : Decidable (isTagged data) := by
  unfold isTagged
  infer_instance

/-- `gtpv1_get_header`: the offset of a GTPv1 header in the frame, if there is one. -/
def gtpv1GetHeader (length : UInt32) (data : Memory) : Option ℕ :=
  if length - 0 < UInt32.ofNat sizeofEtherHeader then none
  else
    -- the type behind the tag is read without a test that it was captured
    let etherType := if isTagged data then data.be16 (12 + tagEther8021QLength)
      else data.be16 12
    let offset := if isTagged data then UInt32.ofNat (sizeofEtherHeader + tagEther8021QLength)
      else UInt32.ofNat sizeofEtherHeader
    if etherType ≠ etherTypeIp then none
    else if length - offset < UInt32.ofNat sizeofIp then none
    else if data.highNibble offset.toNat ≠ ipVersion then none
    -- `ip_p`
    else if data (offset.toNat + 9) ≠ ipProtoUdp then none
    else
      -- `ip_hl` counts units of four octets and is not tested against the minimum of five
      let offset := offset + UInt32.ofNat (data.lowNibble offset.toNat * 4)
      if length - offset < UInt32.ofNat sizeofUdphdr then none
      else if ¬ hasGtpPort data offset.toNat then none
      else
        let offset := offset + UInt32.ofNat sizeofUdphdr
        if length - offset < UInt32.ofNat sizeofGtpv1hdr then none
        else if flagTypeVer data offset.toNat ≠ gtpV1TypeVer then none
        else some offset.toNat

/-! ## Where the header is found -/

/-- The length of the Ethernet header of the frame, its tag included. -/
def etherLength (data : Memory) : ℕ :=
  if isTagged data then sizeofEtherHeader + tagEther8021QLength else sizeofEtherHeader

theorem etherLength_eq (data : Memory) : etherLength data = 14 ∨ etherLength data = 18 := by
  unfold etherLength sizeofEtherHeader tagEther8021QLength
  split <;> simp

/-- A header that is found sits behind the Ethernet, IP and UDP headers of the frame. -/
theorem gtpv1GetHeader_eq_some {length : UInt32} {data : Memory} {gtp : ℕ}
    (h : gtpv1GetHeader length data = some gtp) :
    gtp = etherLength data + data.lowNibble (etherLength data) * 4 + sizeofUdphdr := by
  have hsmall : ∀ e : ℕ, e ≤ 18 →
      (UInt32.ofNat e + UInt32.ofNat (data.lowNibble (UInt32.ofNat e).toNat * 4)
        + UInt32.ofNat sizeofUdphdr).toNat = e + data.lowNibble e * 4 + sizeofUdphdr := by
    intro e he
    have hnib := data.lowNibble_lt e
    have hmod : e % 2 ^ 32 = e := Nat.mod_eq_of_lt (by omega)
    simp only [sizeofUdphdr, UInt32.toNat_add, UInt32.toNat_ofNat', hmod]
    omega
  unfold gtpv1GetHeader at h
  unfold etherLength
  by_cases htag : isTagged data
  · simp only [htag, if_true, Option.ite_none_left_eq_some] at h ⊢
    rw [← Option.some.inj h.2.2.2.2.2.2.2.2.2]
    exact hsmall _ (by norm_num [sizeofEtherHeader, tagEther8021QLength])
  · simp only [htag, if_false, Option.ite_none_left_eq_some] at h ⊢
    rw [← Option.some.inj h.2.2.2.2.2.2.2.2.2]
    exact hsmall _ (by norm_num [sizeofEtherHeader])

/-- The offset of a header that is found lies between the shortest and the longest header
stack. -/
theorem gtpv1GetHeader_bounds {length : UInt32} {data : Memory} {gtp : ℕ}
    (h : gtpv1GetHeader length data = some gtp) :
    etherLength data + 8 ≤ gtp ∧ gtp ≤ 86 := by
  have hgtp := gtpv1GetHeader_eq_some h
  have hnib := data.lowNibble_lt (etherLength data)
  rw [sizeofUdphdr] at hgtp
  rcases etherLength_eq data with he | he <;> omega

/-! ## A frame to try things on -/

/-- An untagged Ethernet, IPv4 and UDP frame to the GTP-U port, padded to the minimum frame size,
whose GTP header has the given flags octet and message type. -/
def gtpFrame (flags type : UInt8) : Packet where
  header := { tvSec := 0, tvUsec := 0, caplen := 60, len := 60 }
  data := Memory.ofList [
    0x00, 0x11, 0x22, 0x33, 0x44, 0x55, 0x66, 0x77, 0x88, 0x99, 0xaa, 0xbb, 0x08, 0x00,
    0x45, 0x00, 0x00, 0x24, 0x00, 0x00, 0x00, 0x00, 0x40, 0x11, 0x00, 0x00,
    0x0a, 0x00, 0x00, 0x01, 0x0a, 0x00, 0x00, 0x02,
    0x08, 0x68, 0x08, 0x68, 0x00, 0x10, 0x00, 0x00,
    flags, type, 0x00, 0x00, 0x00, 0x00, 0x00, 0x00]

end DistributorMerger
