import DistributorMerger.Filter.Columns

/-!
# Printed end user addresses

An end user address element has a PDP type number that says which of three layouts its address has,
and a length that says how far it reaches. Both decoders print the four octets behind the type
number as an IPv4 address whenever the length is more than that of an element without address. They
do not look at the type number, and a length of three to five leaves some of the four octets to the
elements behind.
-/

namespace DistributorMerger

/-- `GTPV1_EUA_PDP_TYPENUMBER_IPV4`. -/
def gtpv1EuaPdpTypenumberIpv4 : ℕ := 0x21

/-- `GTPV1_EUA_PDP_TYPENUMBER_IPV4V6`. -/
def gtpv1EuaPdpTypenumberIpv4v6 : ℕ := 0x8d

/-- `GTPV1_EUA_IPV4_LENGTH`. -/
def gtpv1EuaIpv4Length : ℕ := 4

/-- `pdp_type_number` of the element at `pos`. -/
def euaPdpTypeNumber (data : Memory) (pos : ℕ) : ℕ := (data (pos + 4)).toNat

/-- The element carries an IPv4 address where the decoders look for it: the type number says that
there is one, and its octets lie inside the declared body. -/
structure CarriesIpv4 (data : Memory) (gtp : ℕ) (v : ElementVisit) : Prop where
  /-- The address is an IPv4 address, alone or in front of an IPv6 address. -/
  type : euaPdpTypeNumber data (gtp + v.offset) = gtpv1EuaPdpTypenumberIpv4 ∨
    euaPdpTypeNumber data (gtp + v.offset) = gtpv1EuaPdpTypenumberIpv4v6
  /-- The octets are in front of the end of the element. -/
  inside : ∀ i < gtpv1EuaIpv4Length, v.offset + 5 + i < v.behind

/-- In some state `decodegtp` prints the octets of the element `v` as an address. -/
def Decodegtp.PrintsAddress (data : Memory) (gtp : ℕ) (v : ElementVisit) : Prop :=
  ∃ c rest, (Decodegtp.visit data gtp v c).out
    = c.out ++ (dotted (euaIpv4Address data (gtp + v.offset)) ++ rest)

/-- In some state `gtpimsieua` prints a line with the octets of the element `v` as an address. -/
def Gtpimsieua.PrintsAddress (m : Gtpimsieua.Message) (v : ElementVisit) : Prop :=
  ∃ s line, (Gtpimsieua.visit m v s).history = s.history ++ [.printed m.index line] ∧
    line.address = dotted (euaIpv4Address m.packet.data (m.gtp + v.offset))

/-- Every address printed for an end user address element of the packet is one that the element
carries. -/
structure AddressesReal (p : Packet) : Prop where
  /-- The addresses that `decodegtp` prints. -/
  decodegtp : ∀ gtp, gtpv1GetHeader p.header.caplen p.data = some gtp →
    messageType p.data gtp ≠ gtpv1MtGPdu → ∀ v, Visits p.header.caplen.toNat p.data gtp v →
      v.ie = gtpv1IeEndUserAddress → Decodegtp.PrintsAddress p.data gtp v →
        CarriesIpv4 p.data gtp v
  /-- The addresses that `gtpimsieua` prints. -/
  gtpimsieua : ∀ gtp, gtpv1GetHeader p.header.caplen p.data = some gtp →
    Gtpimsieua.isCreatePdpContext p.data gtp → ∀ v, Visits p.header.caplen.toNat p.data gtp v →
      v.ie = gtpv1IeEndUserAddress → ∀ index now,
        Gtpimsieua.PrintsAddress ⟨index, p, gtp, now⟩ v → CarriesIpv4 p.data gtp v

section Prints

variable {data : Memory} {gtp : ℕ} {v : ElementVisit}

theorem gtpv1EuaLength_of_visits {caplen : ℕ} (hv : Visits caplen data gtp v)
    (hie : v.ie = gtpv1IeEndUserAddress) : gtpv1EuaLength data (gtp + v.offset) = v.bodyLength := by
  obtain ⟨offset, -, -, rfl⟩ := visits_iff.mp hv
  have htlv : (data (gtp + offset)).toNat ≥ gtpv1FirstTlvIe := by
    rw [show (data (gtp + offset)).toNat = gtpv1IeEndUserAddress from hie]
    decide
  rw [visitAt, elementBodyLength, if_pos htlv]
  rfl

private theorem dot_mem_dotted (octet : ℕ → UInt8) : '.' ∈ (dotted octet).toList := by
  simp [dotted, String.toList_append]

theorem Decodegtp.printsAddress_iff (hie : v.ie = gtpv1IeEndUserAddress) :
    Decodegtp.PrintsAddress data gtp v ↔
      gtpv1EuaLength data (gtp + v.offset) > gtpv1EuaNoAddressLength := by
  have hvalue : ∀ c, Decodegtp.printValue data (gtp + v.offset) v.ie c
      = if gtpv1EuaLength data (gtp + v.offset) > gtpv1EuaNoAddressLength
        then c.fill .eua (dotted (euaIpv4Address data (gtp + v.offset))) else c := by
    intro c
    rw [hie]
    exact Decodegtp.printValue_of_ieType data (gtp + v.offset) c .eua
  constructor
  · rintro ⟨c, rest, hout⟩
    -- A column without an address closes with commas only, and an address has a dot.
    by_contra hlength
    obtain ⟨commas, hcommas, honly⟩ := Decodegtp.exists_out_closeColumns v.ie c
    rw [Decodegtp.visit_eq, hvalue, if_neg hlength, hcommas] at hout
    have hlist := congrArg String.toList hout
    rw [String.toList_append, String.toList_append, String.toList_append] at hlist
    have hdot : '.' ∈ commas.toList := by
      rw [List.append_cancel_left hlist]
      exact List.mem_append_left _ (dot_mem_dotted _)
    exact absurd (honly _ hdot) (by decide)
  · intro hlength
    obtain ⟨rest, hrest, -⟩ := Decodegtp.exists_out_closeColumns v.ie
      (Decodegtp.printValue data (gtp + v.offset) v.ie { out := "" })
    refine ⟨{ out := "" }, rest, ?_⟩
    rw [Decodegtp.visit_eq, hrest, hvalue, if_pos hlength, Decodegtp.out_fill, String.append_assoc]

theorem Gtpimsieua.printsAddress_iff {m : Gtpimsieua.Message}
    (hie : v.ie = gtpv1IeEndUserAddress) :
    Gtpimsieua.PrintsAddress m v ↔
      gtpv1EuaLength m.packet.data (m.gtp + v.offset) > gtpv1EuaNoAddressLength := by
  have hvisit : ∀ s, Gtpimsieua.visit m v s
      = if gtpv1EuaLength m.packet.data (m.gtp + v.offset) > gtpv1EuaNoAddressLength
        then Gtpimsieua.printAddress m (m.gtp + v.offset) s else s := by
    intro s
    simp [Gtpimsieua.visit, hie, gtpv1IeEndUserAddress, gtpv1IeImsi, gtpv1IeTeiControlPlane]
  have hprint : ∀ s, ∃ imsi, (Gtpimsieua.printAddress m (m.gtp + v.offset) s).history
      = s.history ++ [.printed m.index (m.line (m.gtp + v.offset) imsi)] := by
    intro s
    unfold Gtpimsieua.printAddress
    split
    · split
      · exact ⟨none, rfl⟩
      · exact ⟨some _, rfl⟩
    · exact ⟨none, rfl⟩
  constructor
  · rintro ⟨s, line, hhistory, -⟩
    by_contra hlength
    rw [hvisit, if_neg hlength] at hhistory
    simp at hhistory
  · intro hlength
    obtain ⟨imsi, hhistory⟩ := hprint Gtpimsieua.State.init
    refine ⟨Gtpimsieua.State.init, m.line (m.gtp + v.offset) imsi, ?_, rfl⟩
    rw [hvisit, if_pos hlength, hhistory]

/-- The four octets lie inside the body when it is long enough for them and the type number. -/
theorem carriesIpv4_iff (hie : v.ie = gtpv1IeEndUserAddress) :
    CarriesIpv4 data gtp v ↔ gtpv1EuaNoAddressLength + gtpv1EuaIpv4Length ≤ v.bodyLength ∧
      (euaPdpTypeNumber data (gtp + v.offset) = gtpv1EuaPdpTypenumberIpv4 ∨
        euaPdpTypeNumber data (gtp + v.offset) = gtpv1EuaPdpTypenumberIpv4v6) := by
  have hbehind : v.behind = v.offset + (3 + v.bodyLength) := by
    rw [ElementVisit.behind, hie]
    rfl
  constructor
  · intro h
    have hlast := h.inside 3 (by decide)
    rw [gtpv1EuaNoAddressLength, gtpv1EuaIpv4Length]
    exact ⟨by omega, h.type⟩
  · rintro ⟨hlength, htype⟩
    refine ⟨htype, fun i hi ↦ ?_⟩
    rw [gtpv1EuaNoAddressLength, gtpv1EuaIpv4Length] at hlength
    rw [gtpv1EuaIpv4Length] at hi
    omega

end Prints

/-- **When printed end user addresses are real.** They are exactly when every end user address
element that the walk of a GTP-C message acts on has a length of at most two, or a length of at
least six and the type number of IPv4 or IPv4v6. -/
theorem addressesReal_iff (p : Packet) :
    AddressesReal p ↔ ∀ gtp, gtpv1GetHeader p.header.caplen p.data = some gtp →
      messageType p.data gtp ≠ gtpv1MtGPdu → ∀ v, Visits p.header.caplen.toNat p.data gtp v →
        v.ie = gtpv1IeEndUserAddress → v.bodyLength ≤ gtpv1EuaNoAddressLength ∨
          gtpv1EuaNoAddressLength + gtpv1EuaIpv4Length ≤ v.bodyLength ∧
            (euaPdpTypeNumber p.data (gtp + v.offset) = gtpv1EuaPdpTypenumberIpv4 ∨
              euaPdpTypeNumber p.data (gtp + v.offset) = gtpv1EuaPdpTypenumberIpv4v6) := by
  constructor
  · intro h gtp hgtp htype v hv hie
    by_cases hlength : v.bodyLength ≤ gtpv1EuaNoAddressLength
    · exact Or.inl hlength
    · refine Or.inr ((carriesIpv4_iff hie).mp (h.decodegtp gtp hgtp htype v hv hie ?_))
      rw [Decodegtp.printsAddress_iff hie, gtpv1EuaLength_of_visits hv hie]
      omega
  · intro h
    have hreal : ∀ gtp, gtpv1GetHeader p.header.caplen p.data = some gtp →
        messageType p.data gtp ≠ gtpv1MtGPdu → ∀ v, Visits p.header.caplen.toNat p.data gtp v →
          v.ie = gtpv1IeEndUserAddress →
            gtpv1EuaLength p.data (gtp + v.offset) > gtpv1EuaNoAddressLength →
              CarriesIpv4 p.data gtp v := by
      intro gtp hgtp htype v hv hie hlength
      rw [gtpv1EuaLength_of_visits hv hie] at hlength
      exact (carriesIpv4_iff hie).mpr ((h gtp hgtp htype v hv hie).resolve_left (by omega))
    refine ⟨fun gtp hgtp htype v hv hie hprints ↦ ?_,
      fun gtp hgtp hcreate v hv hie index now hprints ↦ ?_⟩
    · exact hreal gtp hgtp htype v hv hie ((Decodegtp.printsAddress_iff hie).mp hprints)
    · exact hreal gtp hgtp (ne_gPdu_of_isCreatePdpContext hcreate) v hv hie
        ((Gtpimsieua.printsAddress_iff (m := ⟨index, p, gtp, now⟩) hie).mp hprints)

/-- The element that carries an IPv6 end user address. -/
def euaIpv6Element : Element where
  entry := ⟨gtpv1IeEndUserAddress, 3, 0⟩
  body := 0xf1 :: 0x57 :: List.replicate 16 0x20
  listed := endUserAddress_mem_listedElements
  length_of_tv := fun h ↦ absurd h (by decide)
  length_lt := by decide

/-- A Create PDP Context Response with an IPv6 end user address. -/
def ipv6Response : Packet :=
  gtpcFrame gtpv1MtCreatePdpContextResponse (teidOctets 5) [euaIpv6Element]

/-- The first four octets of an IPv6 address are printed as an IPv4 address. -/
theorem not_addressesReal_ipv6 : ¬ AddressesReal ipv6Response := by
  intro h
  have hgtp : gtpv1GetHeader ipv6Response.header.caplen ipv6Response.data = some 42 := by decide
  have hv : Visits ipv6Response.header.caplen.toNat ipv6Response.data 42
      ⟨gtpv1IeEndUserAddress, 8, 18⟩ :=
    ⟨8, Reaches.first, Or.inl (by decide)⟩
  have hcarries := h.decodegtp 42 hgtp (by decide) _ hv rfl
    ((Decodegtp.printsAddress_iff rfl).mpr (by decide))
  exact absurd hcarries.type (by decide)

end DistributorMerger
