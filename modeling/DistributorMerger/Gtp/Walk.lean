import DistributorMerger.Gtp.InformationElements

/-!
# The information element walk

`decodegtp` and `gtpimsieua` share one loop over the information elements of a GTP-C message. Each
iteration reads a type octet, looks up the header length, reads the body length of a TLV element
from the packet, acts on the element and steps behind it. The loop leaves in front of an element
whose header or body does not fit, and after an element that reaches the declared message length.

The offset counts from the GTP header, while the two tests for enough data compare it with the
captured length of the whole frame. For a message that is captured completely the difference, the
offset of the GTP header in the frame, only makes those tests more generous.

An unlisted type has header and body length zero, so the loop need not end; it takes fuel, and the
result is `none` when the fuel is used up.
-/

namespace DistributorMerger

/-! ## The loop -/

/-- An element that the loop body acts on. -/
structure ElementVisit where
  /-- The type octet. -/
  ie : ℕ
  /-- The offset of the element from the GTP header. -/
  offset : ℕ
  /-- The length of the element's body. -/
  bodyLength : ℕ
  deriving DecidableEq, Repr

/-- The offset behind a visited element. -/
def ElementVisit.behind (v : ElementVisit) : ℕ :=
  v.offset + ((gtpv1InformationElement v.ie).headerLength + v.bodyLength)

/-- What one iteration of the loop does. -/
inductive Iteration
  /-- Leave the loop without acting on an element. -/
  | leave
  /-- Act on an element and leave the loop. -/
  | last (v : ElementVisit)
  /-- Act on an element and go on behind it. -/
  | next (v : ElementVisit)
  deriving DecidableEq, Repr

/-- One iteration at `offset`, for a frame of `caplen` captured bytes with a GTP header at `gtp`. -/
def walkIteration (caplen : ℕ) (data : Memory) (gtp offset : ℕ) : Iteration :=
  if offset < caplen then
    let ie := (data (gtp + offset)).toNat
    let headerLength := (gtpv1InformationElement ie).headerLength
    -- the element header has to end in front of the last captured byte
    if offset + headerLength ≥ caplen then .leave
    else
      -- a TLV element declares the length of its body, a TV element has it from the table
      let bodyLength := if ie ≥ gtpv1FirstTlvIe then data.be16 (gtp + offset + 1)
        else (gtpv1InformationElement ie).bodyLength
      if offset + headerLength + bodyLength ≥ caplen then .leave
      else
        let v : ElementVisit := ⟨ie, offset, bodyLength⟩
        -- the declared end of the message is looked at only behind the action
        if v.behind ≥ sizeofGtpv1hdr + messageLength data gtp then .last v else .next v
  else .leave

section Walk

variable {σ : Type*} (visit : ElementVisit → σ → σ) (caplen : ℕ) (data : Memory) (gtp : ℕ)

/-- The `while` loop from `offset` on, with `visit` as its action on an element. -/
def walk : ℕ → ℕ → σ → Option σ
  | 0, _, _ => none
  | fuel + 1, offset, s =>
    match walkIteration caplen data gtp offset with
    | .leave => some s
    | .last v => some (visit v s)
    | .next v => walk fuel v.behind (visit v s)

end Walk

/-- Where the first information element is looked for: behind the mandatory header, and behind the
optional part when any option flag is set. -/
def firstElementOffset (data : Memory) (gtp : ℕ) : ℕ :=
  if flagOptions data gtp ≠ 0 then sizeofGtpv1hdr + sizeofGtpv1hdropt else sizeofGtpv1hdr

section Visits

variable (caplen : ℕ) (data : Memory) (gtp : ℕ)

/-- The offsets that the loop comes to. -/
inductive Reaches : ℕ → Prop
  /-- The loop starts in front of the first element. -/
  | first : Reaches (firstElementOffset data gtp)
  /-- An iteration that does not leave the loop comes behind its element. -/
  | next {offset : ℕ} {v : ElementVisit} (h : Reaches offset)
      (hnext : walkIteration caplen data gtp offset = .next v) : Reaches v.behind

/-- The loop acts on the element `v`. -/
def Visits (v : ElementVisit) : Prop :=
  ∃ offset, Reaches caplen data gtp offset ∧
    (walkIteration caplen data gtp offset = .last v ∨
      walkIteration caplen data gtp offset = .next v)

end Visits

/-! ## Well-formed messages -/

/-- The elements `es` make up a completely captured GTP-C message in the frame: the header search
finds its header at `gtp`, the extension flag is clear, the elements stand one after another
behind the optional part, and the length field counts the optional part and the elements. -/
structure WellFormedMessage (caplen : UInt32) (data : Memory) (gtp : ℕ) (es : List Element) :
    Prop where
  /-- The frame carries a GTP header at `gtp`. -/
  found : gtpv1GetHeader caplen data = some gtp
  /-- The extension flag is clear. -/
  not_ext : gtpExtFlag (flagOptions data gtp) = 0
  /-- The elements are laid out behind the header. -/
  laid_out : data.Holds (gtp + firstElementOffset data gtp) (elementOctets es)
  /-- The length field is exact. -/
  length_eq : sizeofGtpv1hdr + messageLength data gtp
    = firstElementOffset data gtp + (elementOctets es).length
  /-- The whole message is captured. -/
  captured : gtp + sizeofGtpv1hdr + messageLength data gtp ≤ caplen.toNat

/-- The elements `es` make up a completely captured message in the frame, whatever its flags: they
stand behind the header and its option fields and fill the declared length. -/
structure CompleteMessage (caplen : UInt32) (data : Memory) (gtp : ℕ) (es : List Element) :
    Prop where
  /-- The frame carries a GTP header at `gtp`. -/
  found : gtpv1GetHeader caplen data = some gtp
  /-- The elements are laid out behind the header. -/
  laid_out : data.Holds (gtp + firstElementOffset data gtp) (elementOctets es)
  /-- The length field is exact. -/
  length_eq : sizeofGtpv1hdr + messageLength data gtp
    = firstElementOffset data gtp + (elementOctets es).length
  /-- The whole message is captured. -/
  captured : gtp + sizeofGtpv1hdr + messageLength data gtp ≤ caplen.toNat

theorem WellFormedMessage.complete {caplen : UInt32} {data : Memory} {gtp : ℕ} {es : List Element}
    (h : WellFormedMessage caplen data gtp es) : CompleteMessage caplen data gtp es :=
  ⟨h.found, h.laid_out, h.length_eq, h.captured⟩

/-- The headers of an untagged frame to the GTP-C port with a GTP header of the given type, length
and identifier and without option fields. -/
def gtpcHeaders (type : UInt8) (length : ℕ) (teid : List UInt8) : List UInt8 := [
  0x00, 0x11, 0x22, 0x33, 0x44, 0x55, 0x66, 0x77, 0x88, 0x99, 0xaa, 0xbb, 0x08, 0x00,
  0x45, 0x00, 0x00, 0x00, 0x00, 0x00, 0x00, 0x00, 0x40, 0x11, 0x00, 0x00,
  0x0a, 0x00, 0x00, 0x01, 0x0a, 0x00, 0x00, 0x02,
  0x08, 0x4b, 0x08, 0x4b, 0x00, 0x00, 0x00, 0x00,
  0x30, type, UInt8.ofNat (length / 256), UInt8.ofNat (length % 256),
  teid.getD 0 0, teid.getD 1 0, teid.getD 2 0, teid.getD 3 0]

/-- A frame with a GTP-C message made of the elements `es`. -/
def gtpcFrame (type : UInt8) (teid : List UInt8) (es : List Element) : Packet where
  header :=
    { tvSec := 0, tvUsec := 0, caplen := UInt32.ofNat (50 + (elementOctets es).length)
      len := UInt32.ofNat (50 + (elementOctets es).length) }
  data := Memory.ofList (gtpcHeaders type (elementOctets es).length teid ++ elementOctets es)

/-- The visits that the elements `es` call for when the first of them stands at `offset`. -/
def visitsFrom : ℕ → List Element → List ElementVisit
  | _, [] => []
  | offset, e :: es => ⟨e.entry.id, offset, e.body.length⟩
      :: visitsFrom (offset + e.octets.length) es

theorem visitsFrom_append (es es' : List Element) (offset : ℕ) :
    visitsFrom offset (es ++ es')
      = visitsFrom offset es ++ visitsFrom (offset + (elementOctets es).length) es' := by
  induction es generalizing offset with
  | nil => rfl
  | cons e es ih =>
    rw [List.cons_append, visitsFrom, visitsFrom, ih, elementOctets_cons, List.length_append,
      Nat.add_assoc, List.cons_append]

/-! ## Every list of elements makes a message -/

private theorem toNat_caplen_gtpcFrame (type : UInt8) (teid : List UInt8) {es : List Element}
    (hlen : (elementOctets es).length < 2 ^ 16) :
    (gtpcFrame type teid es).header.caplen.toNat = 50 + (elementOctets es).length := by
  rw [gtpcFrame, UInt32.toNat_ofNat']
  omega

private theorem flagOptions_gtpcFrame (type : UInt8) (teid : List UInt8) (es : List Element) :
    flagOptions (gtpcFrame type teid es).data 42 = 0 := by
  have hflags : (gtpcFrame type teid es).data 42 = 0x30 := rfl
  rw [flagOptions, hflags]
  decide

private theorem firstElementOffset_gtpcFrame (type : UInt8) (teid : List UInt8)
    (es : List Element) : firstElementOffset (gtpcFrame type teid es).data 42 = 8 := by
  rw [firstElementOffset, flagOptions_gtpcFrame]
  rfl

theorem gtpv1GetHeader_gtpcFrame (type : UInt8) (teid : List UInt8) (es : List Element)
    (hlen : (elementOctets es).length < 2 ^ 16) :
    gtpv1GetHeader (gtpcFrame type teid es).header.caplen (gtpcFrame type teid es).data
      = some 42 := by
  have hroom : ∀ offset size : ℕ, offset + size ≤ 50 →
      ¬ (gtpcFrame type teid es).header.caplen - UInt32.ofNat offset < UInt32.ofNat size := by
    intro offset size hsize
    rw [UInt32.lt_iff_toNat_lt, UInt32.toNat_sub, toNat_caplen_gtpcFrame type teid hlen,
      UInt32.toNat_ofNat', UInt32.toNat_ofNat']
    omega
  have hether : (gtpcFrame type teid es).data.be16 12 = etherTypeIp := by
    have h₀ : (gtpcFrame type teid es).data 12 = 0x08 := rfl
    have h₁ : (gtpcFrame type teid es).data 13 = 0x00 := rfl
    rw [Memory.be16, h₀, h₁]
    decide
  have htag : ¬ isTagged (gtpcFrame type teid es).data := by
    rw [isTagged, hether]
    decide
  have hport : (gtpcFrame type teid es).data.be16 34 = gtpCUdpPort := by
    have h₀ : (gtpcFrame type teid es).data 34 = 0x08 := rfl
    have h₁ : (gtpcFrame type teid es).data 35 = 0x4b := rfl
    rw [Memory.be16, h₀, h₁]
    decide
  have hip : (gtpcFrame type teid es).data 14 = 0x45 := rfl
  have hflags : (gtpcFrame type teid es).data 42 = 0x30 := rfl
  have hoffset : UInt32.ofNat sizeofEtherHeader
      + UInt32.ofNat ((gtpcFrame type teid es).data.lowNibble
          (UInt32.ofNat sizeofEtherHeader).toNat * 4) = UInt32.ofNat 34 := by
    rw [show (UInt32.ofNat sizeofEtherHeader).toNat = 14 from by decide, Memory.lowNibble, hip]
    decide
  have hnibble : (gtpcFrame type teid es).data.highNibble 14 = ipVersion := by
    rw [Memory.highNibble, hip]
    decide
  have htypever : flagTypeVer (gtpcFrame type teid es).data 42 = gtpV1TypeVer := by
    rw [flagTypeVer, Memory.highNibble, hflags]
    decide
  unfold gtpv1GetHeader
  simp only [htag, if_false, hoffset, Option.ite_none_left_eq_some, not_not]
  exact ⟨hroom 0 14 (by omega), hether, hroom 14 20 (by omega), hnibble, rfl,
    hroom 34 8 (by omega), .inr (.inr (.inl hport)), hroom 42 8 (by omega), htypever, rfl⟩

private theorem messageLength_gtpcFrame (type : UInt8) (teid : List UInt8) {es : List Element}
    (hlen : (elementOctets es).length < 2 ^ 16) :
    messageLength (gtpcFrame type teid es).data 42 = (elementOctets es).length :=
  Memory.be16_of_holds hlen (Memory.holds_ofList_append
    ((gtpcHeaders type (elementOctets es).length teid).take 44) _)

/-- Every list of elements that fits the length field makes a well-formed message. -/
theorem wellFormed_gtpcFrame (type : UInt8) (teid : List UInt8) (es : List Element)
    (hlen : (elementOctets es).length < 2 ^ 16) :
    WellFormedMessage (gtpcFrame type teid es).header.caplen (gtpcFrame type teid es).data 42
      es where
  found := gtpv1GetHeader_gtpcFrame type teid es hlen
  not_ext := by
    rw [flagOptions_gtpcFrame]
    rfl
  laid_out := by
    rw [firstElementOffset_gtpcFrame]
    exact Memory.holds_ofList_append (gtpcHeaders type (elementOctets es).length teid) _
  length_eq := by
    rw [messageLength_gtpcFrame type teid hlen, firstElementOffset_gtpcFrame]
    rfl
  captured := by
    rw [messageLength_gtpcFrame type teid hlen, toNat_caplen_gtpcFrame type teid hlen]
    exact le_refl _

/-! ## The walk of a well-formed message -/

theorem behind_eq_add_length (e : Element) (offset : ℕ) :
    (⟨e.entry.id, offset, e.body.length⟩ : ElementVisit).behind = offset + e.octets.length := by
  rw [ElementVisit.behind, gtpv1InformationElement_of_listed e.listed, e.length_octets]

private theorem typeOctet_of_holds {data : Memory} {base : ℕ} {e : Element}
    (h : data.Holds base e.octets) : (data base).toNat = e.entry.id := by
  have hlt := (listed_bounds e.listed).1
  have hfirst : data base = UInt8.ofNat e.entry.id := by
    unfold Element.octets at h
    split at h
    · exact (Memory.holds_cons.mp h).1
    · exact (Memory.holds_cons.mp h).1
  rw [hfirst, UInt8.toNat_ofNat', Nat.mod_eq_of_lt hlt]

theorem bodyLength_of_holds {data : Memory} {base : ℕ} {e : Element}
    (h : data.Holds base e.octets) :
    (if e.entry.id ≥ gtpv1FirstTlvIe then data.be16 (base + 1)
      else e.entry.bodyLength) = e.body.length := by
  by_cases htv : e.entry.id < gtpv1FirstTlvIe
  · rw [if_neg (by omega), e.length_of_tv htv]
  · rw [if_pos (by omega)]
    rw [Element.octets, if_neg htv] at h
    exact Memory.be16_of_holds e.length_lt (Memory.holds_cons.mp h).2

/-- An iteration in front of an element of a completely captured message visits that element, and
it is the last one exactly when the element ends the message. -/
private theorem walkIteration_of_holds {caplen : ℕ} {data : Memory} {gtp offset : ℕ} {e : Element}
    (hgtp : 0 < gtp) (h : data.Holds (gtp + offset) e.octets)
    (hfit : offset + e.octets.length ≤ sizeofGtpv1hdr + messageLength data gtp)
    (hcap : gtp + sizeofGtpv1hdr + messageLength data gtp ≤ caplen) :
    walkIteration caplen data gtp offset =
      if offset + e.octets.length ≥ sizeofGtpv1hdr + messageLength data gtp
      then .last ⟨e.entry.id, offset, e.body.length⟩
      else .next ⟨e.entry.id, offset, e.body.length⟩ := by
  have hlen := e.length_octets
  unfold walkIteration
  simp only [typeOctet_of_holds h, gtpv1InformationElement_of_listed e.listed,
    bodyLength_of_holds h, behind_eq_add_length]
  rw [if_pos (by omega), if_neg (by omega), if_neg (by omega)]

section Exact

variable {σ : Type*} (visit : ElementVisit → σ → σ) {caplen : ℕ} {data : Memory} {gtp : ℕ}

/-- The walk from any offset at which the rest of the message stands. The induction is on the
elements; the end test of an iteration fires exactly at the last of them. -/
private theorem walk_of_holds (hgtp : 0 < gtp)
    (hcap : gtp + sizeofGtpv1hdr + messageLength data gtp ≤ caplen) :
    ∀ (es : List Element) (offset fuel : ℕ) (s : σ), es ≠ [] → es.length ≤ fuel →
      data.Holds (gtp + offset) (elementOctets es) →
      offset + (elementOctets es).length = sizeofGtpv1hdr + messageLength data gtp →
      walk visit caplen data gtp fuel offset s
        = some ((visitsFrom offset es).foldl (fun s v ↦ visit v s) s) := by
  intro es
  induction es with
  | nil => intro _ _ _ hne; exact absurd rfl hne
  | cons e es ih =>
    intro offset fuel s _ hfuel hholds hend
    obtain ⟨fuel, rfl⟩ : ∃ k, fuel = k + 1 := ⟨fuel - 1, by simp at hfuel; omega⟩
    rw [elementOctets_cons, Memory.holds_append] at hholds
    rw [elementOctets_cons, List.length_append] at hend
    have hiter := walkIteration_of_holds hgtp hholds.1 (by omega) hcap
    rw [walk, hiter]
    cases es with
    | nil =>
      rw [elementOctets_nil, List.length_nil] at hend
      rw [if_pos (by omega)]
      rfl
    | cons e' es =>
      have hpos := e'.one_le_length_octets
      have hnot : ¬ offset + e.octets.length ≥ sizeofGtpv1hdr + messageLength data gtp := by
        rw [elementOctets_cons, List.length_append] at hend
        omega
      rw [if_neg hnot]
      have hrest := ih (offset + e.octets.length) fuel
        (visit ⟨e.entry.id, offset, e.body.length⟩ s) (List.cons_ne_nil _ _)
        (by simp only [List.length_cons] at hfuel ⊢; omega)
        (by rw [← Nat.add_assoc]; exact hholds.2) (by omega)
      simp only [behind_eq_add_length]
      rw [hrest]
      rfl

/-- On a completely captured message the loop acts on the elements that stand behind the header and
its option fields, at their offsets and in order, and then leaves. -/
theorem walk_of_complete {caplen : UInt32} {es : List Element}
    (h : CompleteMessage caplen data gtp es) (hne : es ≠ []) {fuel : ℕ}
    (hfuel : es.length ≤ fuel) (s : σ) :
    walk visit caplen.toNat data gtp fuel (firstElementOffset data gtp) s
      = some ((visitsFrom (firstElementOffset data gtp) es).foldl (fun s v ↦ visit v s) s) := by
  have hgtp : 0 < gtp := by
    have := (gtpv1GetHeader_bounds h.found).1
    omega
  exact walk_of_holds visit hgtp h.captured es _ fuel s hne hfuel h.laid_out h.length_eq.symm

/-- **The walk is exact.** On a well-formed message the loop acts on the elements of the message,
at their offsets and in order, and then leaves; as much fuel as there are elements is enough. -/
theorem walk_of_wellFormed {caplen : UInt32} {es : List Element}
    (h : WellFormedMessage caplen data gtp es) (hne : es ≠ []) {fuel : ℕ}
    (hfuel : es.length ≤ fuel) (s : σ) :
    walk visit caplen.toNat data gtp fuel (firstElementOffset data gtp) s
      = some ((visitsFrom (firstElementOffset data gtp) es).foldl (fun s v ↦ visit v s) s) :=
  walk_of_complete visit h.complete hne hfuel s

end Exact

end DistributorMerger
