import DistributorMerger.Filter.Gtpimsieua
import DistributorMerger.Gtp.ElementChain
import DistributorMerger.Gtp.HeaderSearch

/-!
# Whether the decoders end, and what they read

`decodegtp` and `gtpimsieua` walk the information elements of a message with one loop. Three things
are asked of it, and each comes down to a condition on the chain of elements in the packet.

Does it end? An element of a type that is not in the table has no header length and, below the TLV
types, no body length, so the loop stays where it is.

Does it read captured bytes only? The offset of an element counts from the GTP header, and the tests
compare it with the captured length of the frame, which leaves out the headers in front.

Does it stay inside its message? The declared length of the message is looked at after an element
has been handled, so the first element is looked at even in a message that has none, and an element
that runs past the declared end is handled like any other.

The handlers are written once more with the offsets they read, and compute the same.
-/

namespace DistributorMerger

/-! ## Whether the decoders end -/

/-- Both decoders come to an end with the packet, and every iteration of their loop that does not
leave it comes to a later offset. -/
structure DecodersEnd (p : Packet) : Prop where
  /-- The handler of `decodegtp` returns. -/
  decodegtp : ∀ ctime, ∃ fuel, (Decodegtp.decodeGtpPacket ctime fuel p).isSome
  /-- The handler of `gtpimsieua` returns. -/
  gtpimsieua : ∀ index now s, ∃ fuel, (Gtpimsieua.decodeGtpPacket fuel index p now s).isSome
  /-- The offset increases. -/
  increases : ∀ gtp, gtpv1GetHeader p.header.caplen p.data = some gtp →
    messageType p.data gtp ≠ gtpv1MtGPdu → ∀ offset v,
      Reaches p.header.caplen.toNat p.data gtp offset →
      walkIteration p.header.caplen.toNat p.data gtp offset = .next v → offset < v.behind

section Ends

variable {p : Packet} {gtp : ℕ}

/-- `decodegtp` ends with a message other than a G-PDU exactly when its walk does. -/
theorem exists_isSome_decodegtp_iff (hgtp : gtpv1GetHeader p.header.caplen p.data = some gtp)
    (htype : messageType p.data gtp ≠ gtpv1MtGPdu) (ctime : ℤ → String) :
    (∃ fuel, (Decodegtp.decodeGtpPacket ctime fuel p).isSome) ↔
      NoEmptyElement p.header.caplen.toNat p.data gtp := by
  have heq : ∀ fuel, (Decodegtp.decodeGtpPacket ctime fuel p).isSome
      = (walk (Decodegtp.visit p.data gtp) p.header.caplen.toNat p.data gtp fuel
          (firstElementOffset p.data gtp)
          { out := Decodegtp.timeText ctime p.header ++ Decodegtp.headerText p.data gtp
              ++ ",," }).isSome := by
    intro fuel
    rw [Decodegtp.decodeGtpPacket, hgtp]
    simp only [htype, if_false, Option.isSome_map]
  simp only [heq]
  exact exists_isSome_walk_iff _ _

theorem exists_isSome_gtpimsieua (hgtp : gtpv1GetHeader p.header.caplen p.data = some gtp)
    (h : Gtpimsieua.isCreatePdpContext p.data gtp →
      NoEmptyElement p.header.caplen.toNat p.data gtp)
    (index : ℕ) (now : ℤ) (s : Gtpimsieua.State) :
    ∃ fuel, (Gtpimsieua.decodeGtpPacket fuel index p now s).isSome := by
  simp only [Gtpimsieua.decodeGtpPacket, hgtp]
  by_cases hcreate : Gtpimsieua.isCreatePdpContext p.data gtp
  · simp only [hcreate, if_true]
    exact (exists_isSome_walk_iff _ _).mpr (h hcreate)
  · simp only [hcreate, if_false]
    exact ⟨0, rfl⟩

theorem ne_gPdu_of_isCreatePdpContext (h : Gtpimsieua.isCreatePdpContext p.data gtp) :
    messageType p.data gtp ≠ gtpv1MtGPdu := by
  rcases h with h | h <;> rw [h] <;> decide

end Ends

/-- **When the information element walk terminates.** Both decoders end with a packet exactly when
no element that the walk comes to is empty: of a type that is not in the table, with a length field
of zero if the type is that of a TLV element. -/
theorem decodersEnd_iff (p : Packet) :
    DecodersEnd p ↔ ∀ gtp, gtpv1GetHeader p.header.caplen p.data = some gtp →
      messageType p.data gtp ≠ gtpv1MtGPdu →
        NoEmptyElement p.header.caplen.toNat p.data gtp := by
  constructor
  · intro h gtp hgtp htype
    exact (exists_isSome_decodegtp_iff hgtp htype fun _ ↦ "").mp (h.decodegtp _)
  · intro h
    refine ⟨fun ctime ↦ ?_, fun index now s ↦ ?_, fun gtp hgtp htype offset v hreaches hnext ↦
      (h gtp hgtp htype).lt_behind hreaches hnext⟩
    · cases hgtp : gtpv1GetHeader p.header.caplen p.data with
      | none => exact ⟨0, by rw [Decodegtp.decodeGtpPacket, hgtp]; rfl⟩
      | some gtp =>
        by_cases htype : messageType p.data gtp = gtpv1MtGPdu
        · refine ⟨0, ?_⟩
          rw [Decodegtp.decodeGtpPacket, hgtp]
          simp only [htype, if_true, Option.isSome_some]
        · exact (exists_isSome_decodegtp_iff hgtp htype ctime).mpr (h gtp hgtp htype)
    · cases hgtp : gtpv1GetHeader p.header.caplen p.data with
      | none => exact ⟨0, by rw [Gtpimsieua.decodeGtpPacket, hgtp]; rfl⟩
      | some gtp =>
        exact exists_isSome_gtpimsieua hgtp
          (fun hcreate ↦ h gtp hgtp (ne_gPdu_of_isCreatePdpContext hcreate)) index now s

/-- A frame with a GTP-C message of the given type and octets. -/
def rawGtpcFrame (type : UInt8) (octets : List UInt8) : Packet where
  header :=
    { tvSec := 0, tvUsec := 0, caplen := UInt32.ofNat (50 + octets.length)
      len := UInt32.ofNat (50 + octets.length) }
  data := Memory.ofList (gtpcHeaders type octets.length [] ++ octets)

/-- A Create PDP Context Request whose first element is of type 6, which is not in the table. -/
theorem not_decodersEnd_unlisted :
    messageType (rawGtpcFrame 16 [6, 0]).data 42 ≠ gtpv1MtGPdu ∧
      ¬ DecodersEnd (rawGtpcFrame 16 [6, 0]) := by
  refine ⟨by decide, fun h ↦ ?_⟩
  have hends := (exists_isSome_decodegtp_iff (show _ = some 42 by decide) (by decide)
    fun _ ↦ "").mp (h.decodegtp _)
  exact hends 8 .first (by decide) (by decide) ⟨by decide, by decide⟩

/-! ## The fields of elements, with what is read -/

/-- `imsi2str` on the element at `pos`. -/
def readImsi (pos : ℕ) : Access String := do
  let octets ← Access.bytes (pos + 1) gtpv1ImsiLength
  pure ((List.range gtpv1ImsiLength).foldl (fun s i ↦ imsi2strOctet s (octets i)) "")

/-- `teid2uint` on the element at `pos`. -/
def readTeid (pos : ℕ) : Access UInt32 := Access.be32 (pos + 1)

/-- The text of the end user address at `pos`, if its length says that there is one. -/
def readAddress (pos : ℕ) : Access (Option String) := do
  let length ← Access.be16 (pos + 1)
  if length > gtpv1EuaNoAddressLength then do
    let address ← Access.bytes (pos + 5) 4
    pure (some (dotted address))
  else pure none

section Fields

variable {data : Memory} {pos n : ℕ}

theorem value_readImsi : (readImsi pos).value data = imsi2str data pos := rfl

theorem value_readTeid : (readTeid pos).value data = teid2uint data pos := rfl

theorem value_readAddress :
    (readAddress pos).value data
      = if gtpv1EuaLength data pos > gtpv1EuaNoAddressLength
        then some (dotted (euaIpv4Address data pos)) else none := by
  rw [readAddress, Access.value_bind, Access.value_be16, gtpv1EuaLength]
  split <;> rfl

theorem below_readImsi : Access.Below n data (readImsi pos) ↔ pos + 9 ≤ n := by
  rw [readImsi, Access.below_bind, Access.below_bytes, gtpv1ImsiLength]
  simp only [Access.below_pure, and_true]
  omega

theorem below_readTeid : Access.Below n data (readTeid pos) ↔ pos + 5 ≤ n := by
  rw [readTeid, Access.below_be32]
  omega

theorem below_readAddress :
    Access.Below n data (readAddress pos) ↔
      pos + 3 ≤ n ∧ (gtpv1EuaLength data pos > gtpv1EuaNoAddressLength → pos + 9 ≤ n) := by
  rw [readAddress, Access.below_bind, Access.below_be16, Access.value_be16, Access.below_onlyIf,
    Access.below_bind, Access.below_bytes, gtpv1EuaLength]
  simp only [Access.below_pure, and_true]
  omega

end Fields

/-- An action on the elements of one type. -/
def onType {σ : Type} (ie type : ℕ) (x : σ → Access σ) (s : σ) : Access σ :=
  if ie = type then x s else pure s

theorem value_onType {σ : Type} {ie type : ℕ} {x : σ → Access σ} {s : σ} {data : Memory} :
    (onType ie type x s).value data = if ie = type then (x s).value data else s := by
  rw [onType]
  split <;> rfl

theorem below_onType {σ : Type} {ie type n : ℕ} {x : σ → Access σ} {s : σ} {data : Memory} :
    Access.Below n data (onType ie type x s) ↔ (ie = type → Access.Below n data (x s)) :=
  Access.below_onlyIf

namespace Decodegtp

/-- The commas for the columns that were passed without their value. -/
def closeColumns (ie : ℕ) (c : Columns) : Columns :=
  let c := if ie > gtpv1IeImsi ∧ ¬ c.imsiFound
    then { c.print "," with imsiFound := true } else c
  let c := if ie > gtpv1IeTeiDataI ∧ ¬ c.teidd1Found
    then { c.print "," with teidd1Found := true } else c
  if ie > gtpv1IeTeiControlPlane ∧ ¬ c.teidcpFound
    then { c.print "," with teidcpFound := true } else c

/-- The action of the loop body on one element, with what it reads. -/
def readVisit (gtp : ℕ) (v : ElementVisit) (c : Columns) : Access Columns := do
  let pos := gtp + v.offset
  let c ← onType v.ie gtpv1IeImsi (fun c ↦ do
    let imsi ← readImsi pos
    pure { c.print (imsi ++ ",") with imsiFound := true }) c
  let c ← onType v.ie gtpv1IeTeiDataI (fun c ↦ do
    let teid ← readTeid pos
    pure { c.print (hexString teid.toNat ++ ",") with teidd1Found := true }) c
  let c ← onType v.ie gtpv1IeTeiControlPlane (fun c ↦ do
    let teid ← readTeid pos
    pure { c.print (hexString teid.toNat ++ ",") with teidcpFound := true }) c
  let c ← onType v.ie gtpv1IeEndUserAddress (fun c ↦ do
    let address ← readAddress pos
    pure (address.elim c fun text ↦ { c.print text with euaFound := true })) c
  pure (closeColumns v.ie c)

/-- The optional part of the GTP header. -/
def readOptions (gtp options : ℕ) : Access String :=
  if options ≠ 0 then do
    let sequenceNo ← Access.be16 (gtp + 8)
    let npduNo ← Access.byte (gtp + 10)
    let nextExthdrtype ← Access.byte (gtp + 11)
    pure (hexString sequenceNo ++ "," ++ hexString npduNo.toNat ++ ","
      ++ hexString nextExthdrtype.toNat)
  else pure ",,"

/-- The fields of the GTP header and its option fields. -/
def readHeaderText (gtp : ℕ) : Access String := do
  let flags ← Access.byte gtp
  let type ← Access.byte (gtp + 1)
  let length ← Access.be16 (gtp + 2)
  let teid ← Access.be32 (gtp + 4)
  let text ← readOptions gtp (flags.toNat % 8)
  pure ((if type = gtpv1MtGPdu then "gtp-u," else "gtp-c,")
    ++ toString (gtpVer (flags.toNat / 16)) ++ "," ++ toString (gtpType (flags.toNat / 16)) ++ ","
    ++ toString (gtpExtFlag (flags.toNat % 8)) ++ "," ++ toString (gtpSeqFlag (flags.toNat % 8))
    ++ "," ++ toString (gtpNpduFlag (flags.toNat % 8)) ++ ","
    ++ toString type.toNat ++ "[" ++ gtpv1MessageTypeName type.toNat ++ "],"
    ++ toString length ++ "," ++ hexString teid.toNat ++ "," ++ text)

/-- The packet handler of `decodegtp` behind the header search. -/
def readPacket (ctime : ℤ → String) (fuel : ℕ) (h : PcapPkthdr) (gtp : ℕ) :
    Access (Option String) := do
  let text ← readHeaderText gtp
  let type ← Access.byte (gtp + 1)
  let flags ← Access.byte gtp
  let offset := if flags.toNat % 8 ≠ 0 then sizeofGtpv1hdr + sizeofGtpv1hdropt else sizeofGtpv1hdr
  if type = gtpv1MtGPdu then do
    let src ← Access.bytes (gtp + offset + 12) 4
    let dst ← Access.bytes (gtp + offset + 16) 4
    pure (some (timeText ctime h ++ text ++ "," ++ dotted src ++ "," ++ dotted dst ++ "\n"))
  else do
    let c ← readWalk (readVisit gtp) h.caplen.toNat gtp fuel offset
      { out := timeText ctime h ++ text ++ ",," }
    pure (c.map fun c ↦ c.out ++ "\n")

section Reads

variable {data : Memory} {n : ℕ} {c : Columns}

theorem value_readVisit (gtp : ℕ) (v : ElementVisit) :
    (readVisit gtp v c).value data = visit data gtp v c := by
  simp only [readVisit, Access.value_bind, Access.value_pure, value_onType, value_readImsi,
    value_readTeid, value_readAddress]
  have haddress : ∀ c : Columns,
      (if v.ie = gtpv1IeEndUserAddress then
        (if gtpv1EuaLength data (gtp + v.offset) > gtpv1EuaNoAddressLength
          then some (dotted (euaIpv4Address data (gtp + v.offset))) else none).elim c
            fun text ↦ { c.print text with euaFound := true }
      else c)
        = if v.ie = gtpv1IeEndUserAddress ∧
            gtpv1EuaLength data (gtp + v.offset) > gtpv1EuaNoAddressLength
          then { c.print (dotted (euaIpv4Address data (gtp + v.offset))) with euaFound := true }
          else c := by
    intro c
    by_cases htype : v.ie = gtpv1IeEndUserAddress
    · by_cases hlength : gtpv1EuaLength data (gtp + v.offset) > gtpv1EuaNoAddressLength
      · rw [if_pos htype, if_pos hlength, if_pos ⟨htype, hlength⟩, Option.elim_some]
      · rw [if_pos htype, if_neg hlength, if_neg fun h ↦ hlength h.2, Option.elim_none]
    · rw [if_neg htype, if_neg fun h ↦ htype h.1]
  rw [haddress]
  rfl

theorem below_readVisit (gtp : ℕ) (v : ElementVisit) :
    Access.Below n data (readVisit gtp v c) ↔
      (v.ie = gtpv1IeImsi → gtp + v.offset + 9 ≤ n) ∧
      (v.ie = gtpv1IeTeiDataI → gtp + v.offset + 5 ≤ n) ∧
      (v.ie = gtpv1IeTeiControlPlane → gtp + v.offset + 5 ≤ n) ∧
      (v.ie = gtpv1IeEndUserAddress → gtp + v.offset + 3 ≤ n ∧
        (gtpv1EuaLength data (gtp + v.offset) > gtpv1EuaNoAddressLength →
          gtp + v.offset + 9 ≤ n)) := by
  simp only [readVisit, Access.below_bind, Access.below_pure, and_true, below_onType,
    below_readImsi, below_readTeid, below_readAddress]

theorem value_readOptions (gtp options : ℕ) :
    (readOptions gtp options).value data
      = if options ≠ 0 then
          hexString (data.be16 (gtp + 8)) ++ "," ++ hexString (data (gtp + 10)).toNat ++ ","
            ++ hexString (data (gtp + 11)).toNat
        else ",," := by
  rw [readOptions, Access.value_ite]
  simp only [Access.value_bind, Access.value_byte, Access.value_be16, Access.value_pure]

theorem below_readOptions (gtp options : ℕ) :
    Access.Below n data (readOptions gtp options) ↔ (options ≠ 0 → gtp + 12 ≤ n) := by
  rw [readOptions, Access.below_onlyIf]
  simp only [Access.below_bind, Access.below_be16, Access.below_byte, Access.below_pure, and_true]
  omega

theorem value_readHeaderText (gtp : ℕ) :
    (readHeaderText gtp).value data = headerText data gtp := by
  rw [readHeaderText, Access.value_bind, Access.value_byte, Access.value_bind, Access.value_byte,
    Access.value_bind, Access.value_be16, Access.value_bind, Access.value_be32, Access.value_bind,
    Access.value_pure, value_readOptions]
  unfold headerText
  dsimp only [flagOptions, flagTypeVer, messageType, messageLength, headerTeid, Memory.highNibble]
  rfl

theorem below_readHeaderText (gtp : ℕ) :
    Access.Below n data (readHeaderText gtp) ↔
      gtp + 8 ≤ n ∧ (flagOptions data gtp ≠ 0 → gtp + 12 ≤ n) := by
  simp only [readHeaderText, Access.below_bind, Access.below_byte, Access.below_be16,
    Access.below_be32, Access.below_pure, and_true, Access.value_byte, below_readOptions]
  rw [flagOptions]
  omega

theorem value_readPacket {p : Packet} {gtp : ℕ}
    (hgtp : gtpv1GetHeader p.header.caplen p.data = some gtp) (ctime : ℤ → String) (fuel : ℕ) :
    (readPacket ctime fuel p.header gtp).value p.data = decodeGtpPacket ctime fuel p := by
  rw [readPacket, decodeGtpPacket, hgtp, Access.value_bind, value_readHeaderText,
    Access.value_bind, Access.value_byte, Access.value_bind, Access.value_byte]
  by_cases htype : messageType p.data gtp = gtpv1MtGPdu
  · have hbyte : p.data (gtp + 1) = gtpv1MtGPdu := htype
    dsimp only
    rw [if_pos hbyte, if_pos htype]
    rfl
  · have hbyte : ¬ p.data (gtp + 1) = gtpv1MtGPdu := htype
    dsimp only
    rw [if_neg hbyte, if_neg htype, Access.value_bind, value_readWalk]
    simp only [value_readVisit]
    rfl

end Reads

end Decodegtp

namespace Gtpimsieua

/-- The action on a control plane identifier at `pos`, which is read when a slot is found for it. -/
def readStore (m : Message) (pos : ℕ) (s : State) : Access State := do
  let type ← Access.byte (m.gtp + 1)
  if type = gtpv1MtCreatePdpContextRequest then
    match firstIndex (s.table.reusable m.now) imsiMapSize 0 with
    | none => pure s
    | some _ => do
      let teid ← readTeid pos
      pure (storeBinding m teid s)
  else pure s

/-- The action on an end user address at `pos`. The identifier in the header is compared with the
bindings when the message is a response. -/
def readPrint (m : Message) (pos : ℕ) (s : State) : Access State := do
  let address ← readAddress pos
  match address with
  | none => pure s
  | some _ => do
    let type ← Access.byte (m.gtp + 1)
    if type = gtpv1MtCreatePdpContextResponse then do
      let _ ← Access.be32 (m.gtp + 4)
      pure (printAddress m pos s)
    else pure (printAddress m pos s)

/-- The action of the loop body on one element, with what it reads. -/
def readVisit (m : Message) (v : ElementVisit) (s : State) : Access State := do
  let pos := m.gtp + v.offset
  let s ← onType v.ie gtpv1IeImsi (fun s ↦ do
    let imsi ← readImsi pos
    pure { s with imsistr := imsi }) s
  let s ← onType v.ie gtpv1IeTeiControlPlane (readStore m pos) s
  onType v.ie gtpv1IeEndUserAddress (readPrint m pos) s

/-- The packet handler of `gtpimsieua` behind the header search. -/
def readPacket (fuel index : ℕ) (p : Packet) (gtp : ℕ) (now : ℤ) (s : State) :
    Access (Option State) := do
  let type ← Access.byte (gtp + 1)
  if type = gtpv1MtCreatePdpContextRequest ∨ type = gtpv1MtCreatePdpContextResponse then do
    let flags ← Access.byte gtp
    let offset := if flags.toNat % 8 ≠ 0 then sizeofGtpv1hdr + sizeofGtpv1hdropt
      else sizeofGtpv1hdr
    readWalk (readVisit ⟨index, p, gtp, now⟩) p.header.caplen.toNat gtp fuel offset
      { s with imsistr := "" }
  else pure (some s)

section Reads

variable {m : Message} {pos : ℕ} {s : State}

theorem value_readStore :
    (readStore m pos s).value m.packet.data
      = if m.isRequest then storeBinding m (teid2uint m.packet.data pos) s else s := by
  rw [readStore, Access.value_bind, Access.value_byte]
  by_cases hrequest : m.isRequest
  · have hbyte : m.packet.data (m.gtp + 1) = gtpv1MtCreatePdpContextRequest := hrequest
    rw [if_pos hbyte, if_pos hrequest, storeBinding]
    cases hslot : firstIndex (s.table.reusable m.now) imsiMapSize 0 with
    | none => rfl
    | some i =>
      dsimp only
      rw [Access.value_bind, value_readTeid, Access.value_pure, storeBinding, hslot]
  · have hbyte : ¬ m.packet.data (m.gtp + 1) = gtpv1MtCreatePdpContextRequest := hrequest
    rw [if_neg hbyte, if_neg hrequest, Access.value_pure]

theorem value_readPrint :
    (readPrint m pos s).value m.packet.data
      = if gtpv1EuaLength m.packet.data pos > gtpv1EuaNoAddressLength then printAddress m pos s
        else s := by
  rw [readPrint, Access.value_bind, value_readAddress]
  by_cases hlength : gtpv1EuaLength m.packet.data pos > gtpv1EuaNoAddressLength
  · rw [if_pos hlength, if_pos hlength]
    dsimp only
    rw [Access.value_bind, Access.value_byte]
    split <;> rfl
  · rw [if_neg hlength, if_neg hlength]
    rfl

theorem value_readVisit (v : ElementVisit) :
    (readVisit m v s).value m.packet.data = visit m v s := by
  rw [readVisit, Access.value_bind, value_onType, Access.value_bind, value_onType, value_onType,
    value_readStore, value_readPrint, visit]
  simp only [ite_and]
  rfl

theorem value_readPacket {p : Packet} {gtp : ℕ}
    (hgtp : gtpv1GetHeader p.header.caplen p.data = some gtp) (fuel index : ℕ) (now : ℤ) :
    (readPacket fuel index p gtp now s).value p.data = decodeGtpPacket fuel index p now s := by
  rw [readPacket, decodeGtpPacket, hgtp, Access.value_bind, Access.value_byte]
  dsimp only
  by_cases hcreate : isCreatePdpContext p.data gtp
  · have hbyte : p.data (gtp + 1) = gtpv1MtCreatePdpContextRequest ∨
        p.data (gtp + 1) = gtpv1MtCreatePdpContextResponse := hcreate
    rw [if_pos hbyte, if_pos hcreate, Access.value_bind, Access.value_byte, value_readWalk]
    have hact : (fun v s ↦ (readVisit ⟨index, p, gtp, now⟩ v s).value p.data)
        = visit ⟨index, p, gtp, now⟩ := by
      funext v s
      exact value_readVisit v
    rw [hact]
    rfl
  · have hbyte : ¬ (p.data (gtp + 1) = gtpv1MtCreatePdpContextRequest ∨
        p.data (gtp + 1) = gtpv1MtCreatePdpContextResponse) := hcreate
    rw [if_neg hbyte, if_neg hcreate, Access.value_pure]

/-- Of an element nothing is read that `decodegtp` does not read. -/
theorem below_readVisit {data : Memory} {n : ℕ} {v : ElementVisit} {c : Decodegtp.Columns}
    (hheader : m.gtp + 8 ≤ n) (h : Access.Below n data (Decodegtp.readVisit m.gtp v c)) :
    Access.Below n data (readVisit m v s) := by
  obtain ⟨himsi, -, hteid, haddress⟩ := (Decodegtp.below_readVisit m.gtp v).mp h
  simp only [readVisit, Access.below_bind, below_onType, below_readImsi, Access.below_pure,
    and_true]
  refine ⟨himsi, fun htype ↦ ?_, fun htype ↦ ?_⟩
  · rw [readStore, Access.below_bind, Access.below_byte, Access.below_onlyIf]
    refine ⟨by omega, fun _ ↦ ?_⟩
    split
    · exact Access.below_pure _
    · rw [Access.below_bind, below_readTeid]
      exact ⟨hteid htype, Access.below_pure _⟩
  · rw [readPrint, Access.below_bind, below_readAddress]
    refine ⟨haddress htype, ?_⟩
    split
    · exact Access.below_pure _
    · rw [Access.below_bind, Access.below_byte]
      refine ⟨by omega, ?_⟩
      split
      · rw [Access.below_bind, Access.below_be32]
        exact ⟨by omega, Access.below_pure _⟩
      · exact Access.below_pure _

end Reads

end Gtpimsieua

/-! ## The octets of an element that are looked at -/

/-- The octets from the type octet at `pos` on that reach to the end of what `decodegtp` decodes of
the element, when it acts on it. -/
def decodedOctets (data : Memory) (pos : ℕ) : ℕ :=
  if (data pos).toNat = gtpv1IeImsi then 9
  else if (data pos).toNat = gtpv1IeTeiDataI ∨ (data pos).toNat = gtpv1IeTeiControlPlane then 5
  else if (data pos).toNat = gtpv1IeEndUserAddress ∧
    gtpv1EuaLength data pos > gtpv1EuaNoAddressLength then 9
  else if (data pos).toNat ≥ gtpv1FirstTlvIe then 3 else 1

/-- The octets of the element at `offset` that an iteration looks at: those that are decoded if the
element ends in front of the captured length, and otherwise the type octet and, if its header ends
in front of the captured length, the length field of a TLV element. -/
def octetsRead (caplen : ℕ) (data : Memory) (gtp offset : ℕ) : ℕ :=
  if offset + elementLength data (gtp + offset) < caplen then decodedOctets data (gtp + offset)
  else if offset + elementHeaderLength data (gtp + offset) < caplen ∧
    (data (gtp + offset)).toNat ≥ gtpv1FirstTlvIe then 3 else 1

section Octets

variable {n caplen : ℕ} {data : Memory} {gtp offset : ℕ}

theorem le_firstElementOffset (data : Memory) (gtp : ℕ) :
    8 ≤ firstElementOffset data gtp ∧ firstElementOffset data gtp ≤ 12 := by
  rw [firstElementOffset, sizeofGtpv1hdr, sizeofGtpv1hdropt]
  split <;> omega

theorem ElementAt.le (h : ElementAt data gtp offset) : 8 ≤ offset := by
  induction h with
  | first => exact (le_firstElementOffset data gtp).1
  | next _ ih => omega

/-- What is decoded of an element lies below `n` exactly when the decoded octets do. -/
theorem decoded_le_iff {c : Decodegtp.Columns} :
    gtp + offset < n ∧
        ((data (gtp + offset)).toNat ≥ gtpv1FirstTlvIe → gtp + offset + 2 < n) ∧
        Access.Below n data (Decodegtp.readVisit gtp (visitAt data gtp offset) c) ↔
      gtp + offset + decodedOctets data (gtp + offset) ≤ n := by
  rw [Decodegtp.below_readVisit]
  unfold decodedOctets visitAt gtpv1IeImsi gtpv1IeTeiDataI gtpv1IeTeiControlPlane
    gtpv1IeEndUserAddress gtpv1FirstTlvIe
  dsimp only
  repeat' split
  all_goals omega

/-- An iteration of `decodegtp` reads below `n` exactly when the octets that it looks at lie
there. -/
theorem iterationBelow_iff (hcaplen : offset < caplen) (hoffset : 8 ≤ offset) :
    IterationBelow (Decodegtp.readVisit gtp) n caplen data gtp offset ↔
      gtp + offset + octetsRead caplen data gtp offset ≤ n := by
  rw [IterationBelow, octetsRead]
  by_cases hbody : offset + elementLength data (gtp + offset) < caplen
  · have hfit : offset + elementHeaderLength data (gtp + offset) < caplen := by
      rw [elementLength] at hbody
      omega
    rw [if_pos hbody]
    constructor
    · intro h
      obtain ⟨htype, hrest⟩ := h hcaplen
      exact decoded_le_iff.mp ⟨htype, (hrest hfit).1, ((hrest hfit).2 hbody).1 { out := "" }⟩
    · intro h _
      refine ⟨(decoded_le_iff (c := { out := "" }).mpr h).1, fun _ ↦
        ⟨(decoded_le_iff (c := { out := "" }).mpr h).2.1, fun _ ↦ ⟨fun c ↦ ?_, ?_⟩⟩⟩
      · exact (decoded_le_iff.mpr h).2.2
      · have htype := (decoded_le_iff (c := { out := "" }).mpr h).1
        omega
  · rw [if_neg hbody]
    split <;> omega

theorem iterationBelow_gtpimsieua {m : Gtpimsieua.Message} (hheader : m.gtp + 8 ≤ n)
    (h : IterationBelow (Decodegtp.readVisit m.gtp) n caplen data m.gtp offset) :
    IterationBelow (Gtpimsieua.readVisit m) n caplen data m.gtp offset := by
  intro hcaplen
  obtain ⟨htype, hrest⟩ := h hcaplen
  refine ⟨htype, fun hfit ↦ ⟨(hrest hfit).1, fun hbody ↦ ?_⟩⟩
  obtain ⟨hact, hlength⟩ := (hrest hfit).2 hbody
  exact ⟨fun s ↦ Gtpimsieua.below_readVisit hheader (hact { out := "" }), hlength⟩

/-- The walk of `decodegtp` reads below `n` exactly when the octets that it looks at lie there. -/
theorem below_readWalk_decodegtp_iff (hcaplen : 14 ≤ caplen) (c : Decodegtp.Columns) :
    (∀ fuel, Access.Below n data
        (readWalk (Decodegtp.readVisit gtp) caplen gtp fuel (firstElementOffset data gtp) c)) ↔
      ∀ offset, Begins caplen data gtp offset →
        gtp + offset + octetsRead caplen data gtp offset ≤ n := by
  have hfirst := le_firstElementOffset data gtp
  rw [below_readWalk_iff]
  · refine forall₂_congr fun offset hbegins ↦ iterationBelow_iff ?_ hbegins.elementAt.le
    rcases hbegins with rfl | ⟨-, hlt, -⟩
    · omega
    · exact hlt
  · intro v c c' h
    rwa [Decodegtp.below_readVisit] at h ⊢

theorem below_readWalk_gtpimsieua {m : Gtpimsieua.Message} (hcaplen : 14 ≤ caplen)
    (h : ∀ offset, Begins caplen data m.gtp offset →
      m.gtp + offset + octetsRead caplen data m.gtp offset ≤ n)
    (fuel : ℕ) (s : Gtpimsieua.State) :
    Access.Below n data (readWalk (Gtpimsieua.readVisit m) caplen m.gtp fuel
      (firstElementOffset data m.gtp) s) := by
  have hfirst := le_firstElementOffset data m.gtp
  have hheader : m.gtp + 8 ≤ n := by
    have hoctets := h _ (.inl rfl)
    omega
  refine below_readWalk (fun offset hbegins ↦ ?_) fuel _ s (.inl rfl)
  refine iterationBelow_gtpimsieua hheader ((iterationBelow_iff ?_ hbegins.elementAt.le).mpr
    (h offset hbegins))
  rcases hbegins with rfl | ⟨-, hlt, -⟩
  · omega
  · exact hlt

end Octets

/-! ## Captured bytes -/

/-- Every byte that the two handlers read behind the header search is captured: of the header and
its optional part, of the inner IP header of a G-PDU, and of the information elements. -/
structure ReadsCaptured (p : Packet) : Prop where
  /-- The reads of `decodegtp`. -/
  decodegtp : ∀ gtp, gtpv1GetHeader p.header.caplen p.data = some gtp → ∀ ctime fuel,
    ∀ k ∈ (Decodegtp.readPacket ctime fuel p.header gtp).reads p.data, k < p.header.caplen.toNat
  /-- The reads of `gtpimsieua`. -/
  gtpimsieua : ∀ gtp, gtpv1GetHeader p.header.caplen p.data = some gtp → ∀ fuel index now s,
    ∀ k ∈ (Gtpimsieua.readPacket fuel index p gtp now s).reads p.data, k < p.header.caplen.toNat

/-- What the handlers look for in a message with its header at `gtp` is captured. -/
structure FieldsCaptured (p : Packet) (gtp : ℕ) : Prop where
  /-- A G-PDU has its inner IP header captured. -/
  inner : messageType p.data gtp = gtpv1MtGPdu →
    gtp + firstElementOffset p.data gtp + sizeofIp ≤ p.header.caplen.toNat
  /-- Any other message has the octets captured that are looked at of its elements. -/
  elements : messageType p.data gtp ≠ gtpv1MtGPdu → ∀ offset,
    Begins p.header.caplen.toNat p.data gtp offset →
      gtp + offset + octetsRead p.header.caplen.toNat p.data gtp offset ≤ p.header.caplen.toNat

section Captured

variable {p : Packet} {gtp : ℕ}

theorem fourteen_le_caplen (hgtp : gtpv1GetHeader p.header.caplen p.data = some gtp) :
    14 ≤ p.header.caplen.toNat := (gtpv1GetHeader_eq_some_iff.mp hgtp).1

theorem below_readPacket_iff {n fuel : ℕ} {ctime : ℤ → String} :
    Access.Below n p.data (Decodegtp.readPacket ctime fuel p.header gtp) ↔
      gtp + 8 ≤ n ∧ (flagOptions p.data gtp ≠ 0 → gtp + 12 ≤ n) ∧
      (messageType p.data gtp = gtpv1MtGPdu →
        gtp + firstElementOffset p.data gtp + sizeofIp ≤ n) ∧
      (messageType p.data gtp ≠ gtpv1MtGPdu → Access.Below n p.data
        (readWalk (Decodegtp.readVisit gtp) p.header.caplen.toNat gtp fuel
          (firstElementOffset p.data gtp)
          { out := Decodegtp.timeText ctime p.header ++ Decodegtp.headerText p.data gtp
              ++ ",," })) := by
  rw [Decodegtp.readPacket, Access.below_bind, Decodegtp.below_readHeaderText,
    Decodegtp.value_readHeaderText, Access.below_bind, Access.below_byte, Access.value_byte,
    Access.below_bind, Access.below_byte, Access.value_byte]
  dsimp only
  have hfirst : (if (p.data gtp).toNat % 8 ≠ 0 then sizeofGtpv1hdr + sizeofGtpv1hdropt
      else sizeofGtpv1hdr) = firstElementOffset p.data gtp := rfl
  rw [hfirst]
  by_cases htype : messageType p.data gtp = gtpv1MtGPdu
  · have hbyte : p.data (gtp + 1) = gtpv1MtGPdu := htype
    rw [if_pos hbyte, Access.below_bind, Access.below_bytes, Access.below_bind,
      Access.below_bytes]
    simp only [htype, ne_eq, not_true_eq_false, false_imp_iff, true_imp_iff, and_true, sizeofIp,
      Access.below_pure]
    omega
  · have hbyte : ¬ p.data (gtp + 1) = gtpv1MtGPdu := htype
    rw [if_neg hbyte, Access.below_bind]
    simp only [htype, ne_eq, not_false_eq_true, false_imp_iff, true_imp_iff, true_and, and_true,
      Access.below_pure]
    constructor
    · rintro ⟨⟨h₁, h₂⟩, -, -, h₃⟩
      exact ⟨h₁, h₂, h₃⟩
    · rintro ⟨h₁, h₂, h₃⟩
      exact ⟨⟨h₁, h₂⟩, by omega, by omega, h₃⟩

theorem add_twelve_le {n : ℕ} (h : gtp + firstElementOffset p.data gtp ≤ n)
    (hflags : flagOptions p.data gtp ≠ 0) : gtp + 12 ≤ n := by
  rwa [firstElementOffset, if_pos hflags] at h

/-- `decodegtp` reads captured bytes exactly when the fields are captured. -/
theorem below_decodegtp_iff (hgtp : gtpv1GetHeader p.header.caplen p.data = some gtp) :
    (∀ ctime fuel, Access.Below p.header.caplen.toNat p.data
        (Decodegtp.readPacket ctime fuel p.header gtp)) ↔ FieldsCaptured p gtp := by
  have hcaplen := fourteen_le_caplen hgtp
  have hfirst := le_firstElementOffset p.data gtp
  simp only [below_readPacket_iff]
  constructor
  · intro h
    refine ⟨(h (fun _ ↦ "") 0).2.2.1, fun htype ↦ ?_⟩
    exact (below_readWalk_decodegtp_iff hcaplen _).mp fun fuel ↦ (h (fun _ ↦ "") fuel).2.2.2 htype
  · intro h ctime fuel
    have hheader : gtp + firstElementOffset p.data gtp ≤ p.header.caplen.toNat := by
      by_cases htype : messageType p.data gtp = gtpv1MtGPdu
      · have hinner := h.inner htype
        omega
      · have hoctets := h.elements htype _ (.inl rfl)
        omega
    refine ⟨by omega, add_twelve_le hheader, h.inner, fun htype ↦ ?_⟩
    exact (below_readWalk_decodegtp_iff hcaplen _).mpr (h.elements htype) fuel

theorem FieldsCaptured.below_gtpimsieua (h : FieldsCaptured p gtp)
    (hgtp : gtpv1GetHeader p.header.caplen p.data = some gtp)
    (fuel index : ℕ) (now : ℤ) (s : Gtpimsieua.State) :
    Access.Below p.header.caplen.toNat p.data
      (Gtpimsieua.readPacket fuel index p gtp now s) := by
  have hcaplen := fourteen_le_caplen hgtp
  have hfirst := le_firstElementOffset p.data gtp
  have hheader : gtp + 8 ≤ p.header.caplen.toNat := by
    have hbelow := (below_decodegtp_iff hgtp).mpr h (fun _ ↦ "") 0
    exact (below_readPacket_iff.mp hbelow).1
  rw [Gtpimsieua.readPacket, Access.below_bind, Access.below_byte, Access.value_byte]
  refine ⟨by omega, Access.below_onlyIf.mpr fun hcreate ↦ ?_⟩
  rw [Access.below_bind, Access.below_byte, Access.value_byte]
  refine ⟨by omega, ?_⟩
  exact below_readWalk_gtpimsieua (m := ⟨index, p, gtp, now⟩) hcaplen
    (h.elements (ne_gPdu_of_isCreatePdpContext hcreate)) fuel _

end Captured

/-- **When the decoders read captured bytes only.** They do exactly when a G-PDU has its inner IP
header captured, and any other message the octets that the walk looks at of each element that it
comes to. -/
theorem readsCaptured_iff (p : Packet) :
    ReadsCaptured p ↔ ∀ gtp, gtpv1GetHeader p.header.caplen p.data = some gtp →
      FieldsCaptured p gtp := by
  constructor
  · intro h gtp hgtp
    exact (below_decodegtp_iff hgtp).mp fun ctime fuel ↦ h.decodegtp gtp hgtp ctime fuel
  · intro h
    refine ⟨fun gtp hgtp ctime fuel ↦ ?_, fun gtp hgtp fuel index now s ↦ ?_⟩
    · exact (below_decodegtp_iff hgtp).mpr (h gtp hgtp) ctime fuel
    · exact (h gtp hgtp).below_gtpimsieua hgtp fuel index now s

/-- A Create PDP Context Request that was cut behind the type octet of its IMSI. -/
def truncatedRequest : Packet :=
  ⟨{ (rawGtpcFrame 16 (2 :: List.replicate 8 0x11)).header with caplen := 51 },
    (rawGtpcFrame 16 (2 :: List.replicate 8 0x11)).data⟩

/-- The IMSI is decoded all the same: measured from the GTP header it lies in front of the captured
length. -/
theorem not_readsCaptured_truncated : ¬ ReadsCaptured truncatedRequest := by
  intro h
  have hgtp : gtpv1GetHeader truncatedRequest.header.caplen truncatedRequest.data = some 42 := by
    decide
  have hfields := (below_decodegtp_iff hgtp).mp fun ctime fuel ↦ h.decodegtp 42 hgtp ctime fuel
  exact absurd (hfields.elements (by decide) 8 (.inl (by decide))) (by decide)

/-! ## The declared length -/

/-- No byte at or behind the declared end of a message is taken as part of an information element:
none is read by the walks of the two decoders, and no element that they act on reaches so far. -/
structure StaysInMessage (p : Packet) : Prop where
  /-- The reads of the walk of `decodegtp`. -/
  decodegtp : ∀ gtp, gtpv1GetHeader p.header.caplen p.data = some gtp →
    messageType p.data gtp ≠ gtpv1MtGPdu → ∀ fuel c,
      ∀ k ∈ (readWalk (Decodegtp.readVisit gtp) p.header.caplen.toNat gtp fuel
        (firstElementOffset p.data gtp) c).reads p.data,
        k < gtp + (sizeofGtpv1hdr + messageLength p.data gtp)
  /-- The reads of the walk of `gtpimsieua`. -/
  gtpimsieua : ∀ gtp, gtpv1GetHeader p.header.caplen p.data = some gtp →
    Gtpimsieua.isCreatePdpContext p.data gtp → ∀ index now fuel s,
      ∀ k ∈ (readWalk (Gtpimsieua.readVisit ⟨index, p, gtp, now⟩) p.header.caplen.toNat gtp fuel
        (firstElementOffset p.data gtp) s).reads p.data,
        k < gtp + (sizeofGtpv1hdr + messageLength p.data gtp)
  /-- The elements that are acted on. -/
  elements : ∀ gtp, gtpv1GetHeader p.header.caplen p.data = some gtp →
    messageType p.data gtp ≠ gtpv1MtGPdu → ∀ v, Visits p.header.caplen.toNat p.data gtp v →
      v.behind ≤ sizeofGtpv1hdr + messageLength p.data gtp

/-- Every element that a walk comes to, the first one included, has the octets that are looked at in
front of the declared end, and ends there too if it ends in front of the captured length. -/
structure ElementsInMessage (caplen : ℕ) (data : Memory) (gtp : ℕ) : Prop where
  /-- The octets that are looked at. -/
  octets : ∀ offset, Begins caplen data gtp offset →
    offset + octetsRead caplen data gtp offset ≤ sizeofGtpv1hdr + messageLength data gtp
  /-- The whole element. -/
  whole : ∀ offset, Begins caplen data gtp offset →
    offset + elementLength data (gtp + offset) < caplen →
      offset + elementLength data (gtp + offset) ≤ sizeofGtpv1hdr + messageLength data gtp

/-- The walk acts on the elements that it comes to and that end in front of the captured length. -/
theorem visits_iff {caplen : ℕ} {data : Memory} {gtp : ℕ} {v : ElementVisit} :
    Visits caplen data gtp v ↔ ∃ offset, Begins caplen data gtp offset ∧
      offset + elementLength data (gtp + offset) < caplen ∧ v = visitAt data gtp offset := by
  unfold Visits
  refine exists_congr fun offset ↦ and_congr reaches_iff_begins ?_
  rw [walkIteration_eq]
  by_cases hbody : offset + elementLength data (gtp + offset) < caplen
  · rw [if_pos hbody]
    split
    · simp [hbody, eq_comm]
    · simp [hbody, eq_comm]
  · rw [if_neg hbody]
    simp [hbody]

/-- **When the information element walk stays inside its message.** It does exactly when every
element that it comes to lies in front of the declared end, as far as it is looked at and acted
on. The first element is looked at even when the message has none. -/
theorem staysInMessage_iff (p : Packet) :
    StaysInMessage p ↔ ∀ gtp, gtpv1GetHeader p.header.caplen p.data = some gtp →
      messageType p.data gtp ≠ gtpv1MtGPdu →
        ElementsInMessage p.header.caplen.toNat p.data gtp := by
  constructor
  · intro h gtp hgtp htype
    refine ⟨fun offset hbegins ↦ ?_, fun offset hbegins hbody ↦ ?_⟩
    · have hread := (below_readWalk_decodegtp_iff (fourteen_le_caplen hgtp) { out := "" }).mp
        (fun fuel ↦ h.decodegtp gtp hgtp htype fuel _) offset hbegins
      omega
    · exact h.elements gtp hgtp htype _ (visits_iff.mpr ⟨offset, hbegins, hbody, rfl⟩)
  · intro h
    have hoctets : ∀ gtp, gtpv1GetHeader p.header.caplen p.data = some gtp →
        messageType p.data gtp ≠ gtpv1MtGPdu → ∀ offset,
          Begins p.header.caplen.toNat p.data gtp offset →
            gtp + offset + octetsRead p.header.caplen.toNat p.data gtp offset
              ≤ gtp + (sizeofGtpv1hdr + messageLength p.data gtp) := by
      intro gtp hgtp htype offset hbegins
      have hinside := (h gtp hgtp htype).octets offset hbegins
      omega
    refine ⟨fun gtp hgtp htype fuel c ↦ ?_, fun gtp hgtp hcreate index now fuel s ↦ ?_,
      fun gtp hgtp htype v hv ↦ ?_⟩
    · exact (below_readWalk_decodegtp_iff (fourteen_le_caplen hgtp) c).mpr
        (hoctets gtp hgtp htype) fuel
    · exact below_readWalk_gtpimsieua (m := ⟨index, p, gtp, now⟩) (fourteen_le_caplen hgtp)
        (hoctets gtp hgtp (ne_gPdu_of_isCreatePdpContext hcreate)) fuel s
    · obtain ⟨offset, hbegins, hbody, rfl⟩ := visits_iff.mp hv
      exact (h gtp hgtp htype).whole offset hbegins hbody

/-- An echo request with a sequence number and no information element. -/
def sequencedEchoRequest : Packet :=
  ⟨(gtpFrame 0x32 1).header, Function.update (gtpFrame 0x32 1).data 45 4⟩

/-- The octet behind the sequence number, which is padding, is taken as the type of an element. -/
theorem not_staysInMessage_echo_request : ¬ StaysInMessage sequencedEchoRequest := by
  intro h
  have hgtp : gtpv1GetHeader sequencedEchoRequest.header.caplen sequencedEchoRequest.data
      = some 42 := by
    decide
  have hread := (below_readWalk_decodegtp_iff (fourteen_le_caplen hgtp) { out := "" }).mp
    (fun fuel ↦ h.decodegtp 42 hgtp (by decide) fuel _) 12 (.inl (by decide))
  exact absurd hread (by decide)

end DistributorMerger
