import DistributorMerger.Gtp.Header

/-!
# The information element table

`init_gtpv1_information_elements` zeroes a table of 256 entries and fills in the listed element
types. A type below `GTPV1_FIRST_TLV_IE` is a TV element: one type octet and a body whose length is
in the table. A type from there on is a TLV element: the type octet, two length octets and the
body. An entry that is not listed keeps zero for both lengths.

The table's names and grouping flags are read by no modelled function and are left out.
-/

namespace DistributorMerger

/-- An entry of `gtpv1_information_elements`. -/
structure InformationElement where
  /-- The element type. -/
  id : ℕ
  /-- The octets in front of the body. -/
  headerLength : ℕ
  /-- The length of the body of a TV element, zero for a TLV element. -/
  bodyLength : ℕ
  deriving DecidableEq, Repr

/-- `GTPV1_FIRST_TLV_IE`. -/
def gtpv1FirstTlvIe : ℕ := 128

/-- `GTPV1_IE_IMSI`. -/
def gtpv1IeImsi : ℕ := 2

/-- `GTPV1_IE_TEI_DATA_I`. -/
def gtpv1IeTeiDataI : ℕ := 16

/-- `GTPV1_IE_TEI_CONTROL_PLANE`. -/
def gtpv1IeTeiControlPlane : ℕ := 17

/-- `GTPV1_IE_END_USER_ADDRESS`. -/
def gtpv1IeEndUserAddress : ℕ := 128

/-- The listed TV types with their body lengths, in the order of the source. -/
def tvTypes : List (ℕ × ℕ) :=
  [(1, 1), (2, 8), (3, 6), (4, 4), (5, 4), (8, 1), (9, 28), (11, 1), (12, 3), (13, 1), (14, 1),
    (15, 1), (16, 4), (17, 4), (18, 5), (19, 1), (20, 1), (21, 1), (22, 9), (23, 1), (24, 1),
    (25, 2), (26, 2), (27, 2), (28, 2), (29, 1), (127, 4)]

/-- The listed TLV types: 128 to 171, 173 to 211, 251 and 255. -/
def tlvTypes : List ℕ := List.range' 128 44 ++ List.range' 173 39 ++ [251, 255]

/-- The entries that `init_gtpv1_information_elements` fills in. -/
def listedElements : List InformationElement :=
  tvTypes.map (fun t ↦ ⟨t.1, 1, t.2⟩) ++ tlvTypes.map fun t ↦ ⟨t, 3, 0⟩

/-- `gtpv1_information_elements[ie]` after initialisation. -/
def gtpv1InformationElement (ie : ℕ) : InformationElement :=
  (listedElements.find? fun e ↦ e.id = ie).getD ⟨0, 0, 0⟩

/-! ## Facts about the listed entries -/

theorem gtpv1InformationElement_of_listed {e : InformationElement} (h : e ∈ listedElements) :
    gtpv1InformationElement e.id = e := by
  revert e
  decide +kernel

theorem listed_bounds {e : InformationElement} (h : e ∈ listedElements) :
    e.id < 256 ∧ e.headerLength = if e.id < gtpv1FirstTlvIe then 1 else 3 := by
  revert e
  decide +kernel

/-! ## Elements on the wire -/

/-- An information element as a sender lays it out: a listed type and a body of a length the
encoding allows. -/
structure Element where
  /-- The table entry of the element's type. -/
  entry : InformationElement
  /-- The octets after the element header. -/
  body : List UInt8
  /-- The type is in the table. -/
  listed : entry ∈ listedElements
  /-- A TV element has the table's body length. -/
  length_of_tv : entry.id < gtpv1FirstTlvIe → body.length = entry.bodyLength
  /-- The body length of a TLV element fits its two octets. -/
  length_lt : body.length < 2 ^ 16

namespace Element

/-- The octets of an element: type, length of a TLV body, body. -/
def octets (e : Element) : List UInt8 :=
  if e.entry.id < gtpv1FirstTlvIe then UInt8.ofNat e.entry.id :: e.body
  else UInt8.ofNat e.entry.id :: UInt8.ofNat (e.body.length / 256)
    :: UInt8.ofNat (e.body.length % 256) :: e.body

theorem length_octets (e : Element) :
    e.octets.length = e.entry.headerLength + e.body.length := by
  rw [octets, (listed_bounds e.listed).2]
  split <;> simp only [List.length_cons] <;> omega

theorem one_le_length_octets (e : Element) : 1 ≤ e.octets.length := by
  rw [length_octets, (listed_bounds e.listed).2]
  split <;> omega

end Element

/-- The octets of a list of elements laid out one after another. -/
def elementOctets (es : List Element) : List UInt8 := es.flatMap Element.octets

@[simp] theorem elementOctets_nil : elementOctets [] = [] := rfl

@[simp] theorem elementOctets_cons (e : Element) (es : List Element) :
    elementOctets (e :: es) = e.octets ++ elementOctets es := rfl

end DistributorMerger
