import DistributorMerger.Filter.ImsiTable

/-!
# Completeness of the IMSI correlation

While its binding has not expired, a request is answered by the IMSI it carried: the first response
with an end user address for its identifier prints that IMSI and frees that slot alone. A binding is
used up by the line that prints it, so a repeated response is printed without an IMSI.

Three layers are used. `Carries` says what a captured packet contains in terms of its information
elements. One lemma for each kind of content says what the packet handler then does to the table.
`Table.Outstanding` says that the table still holds a binding, and every other packet preserves it.
-/

namespace DistributorMerger

/-! ## Elements of a message -/

theorem elementOctets_append (es es' : List Element) :
    elementOctets (es ++ es') = elementOctets es ++ elementOctets es' := List.flatMap_append

theorem WellFormedMessage.length_le {caplen : UInt32} {data : Memory} {gtp : ℕ}
    {es : List Element} (h : WellFormedMessage caplen data gtp es) : es.length ≤ 2 ^ 16 := by
  have hoctets : ∀ es : List Element, es.length ≤ (elementOctets es).length := by
    intro es
    induction es with
    | nil => exact le_refl _
    | cons e es ih =>
      have hpos := e.one_le_length_octets
      rw [elementOctets_cons, List.length_append, List.length_cons]
      omega
  have hlen := h.length_eq
  have hmessage : messageLength data gtp < 2 ^ 16 := Memory.be16_lt _
  have hfirst : sizeofGtpv1hdr ≤ firstElementOffset data gtp := by
    unfold firstElementOffset
    split <;> omega
  have hes := hoctets es
  omega

theorem WellFormedMessage.holds_element {caplen : UInt32} {data : Memory} {gtp : ℕ}
    {front back : List Element} {e : Element}
    (h : WellFormedMessage caplen data gtp (front ++ e :: back)) :
    data.Holds (gtp + (firstElementOffset data gtp + (elementOctets front).length)) e.octets := by
  have hlaid := h.laid_out
  rw [elementOctets_append, Memory.holds_append, elementOctets_cons, Memory.holds_append] at hlaid
  rw [← Nat.add_assoc]
  exact hlaid.2.1

namespace Gtpimsieua

/-! ## Captured contents -/

/-- What the correlation takes from a packet. -/
inductive Content
  /-- A Create PDP Context Request that announces `teid` and carries `imsi`. -/
  | request (teid : UInt32) (imsi : Imsi)
  /-- A Create PDP Context Response to `teid`, with or without an end user address. -/
  | response (teid : UInt32) (addressed : Bool)
  /-- Anything that is not a Create PDP Context message. -/
  | other

/-- The packet is a completely captured message with that content: a request has one IMSI element
followed by one control plane identifier element, a response has one end user address element, and
other elements may stand anywhere. -/
def Carries (p : Packet) : Content → Prop
  | .request teid imsi => ∃ gtp front between back,
      WellFormedMessage p.header.caplen p.data gtp
        (front ++ imsiElement imsi :: (between ++ teidElement teid :: back)) ∧
      messageType p.data gtp = gtpv1MtCreatePdpContextRequest ∧
      ∀ e ∈ front ++ between ++ back,
        e.entry.id ≠ gtpv1IeImsi ∧ e.entry.id ≠ gtpv1IeTeiControlPlane
  | .response teid addressed => ∃ gtp front eua back,
      WellFormedMessage p.header.caplen p.data gtp (front ++ eua :: back) ∧
      messageType p.data gtp = gtpv1MtCreatePdpContextResponse ∧
      headerTeid p.data gtp = teid ∧ eua.entry.id = gtpv1IeEndUserAddress ∧
      addressed = decide (gtpv1EuaNoAddressLength < eua.body.length) ∧
      ∀ e ∈ front ++ back, e.entry.id ≠ gtpv1IeEndUserAddress
  | .other => ∀ gtp, gtpv1GetHeader p.header.caplen p.data = some gtp →
      ¬ isCreatePdpContext p.data gtp

/-- A packet of the capture with the clock reading taken for it and its content. -/
structure Captured where
  /-- The packet. -/
  packet : Packet
  /-- `time_now` while the packet is handled. -/
  now : ℤ
  /-- The content of the packet. -/
  content : Content
  /-- The packet has that content. -/
  carries : Carries packet content

/-- The packet and its clock reading. -/
def Captured.input (c : Captured) : Packet × ℤ := (c.packet, c.now)

/-- The packet handler on one packet after another, from packet number `index` on. -/
def decodePackets (fuel : ℕ) : ℕ → List (Packet × ℤ) → State → Option State
  | _, [], s => some s
  | index, (p, now) :: packets, s =>
    (decodeGtpPacket fuel index p now s).bind (decodePackets fuel (index + 1) packets)

theorem decodePackets_append {fuel : ℕ} (l l' : List (Packet × ℤ)) :
    ∀ (index : ℕ) (s : State), decodePackets fuel index (l ++ l') s
      = (decodePackets fuel index l s).bind (decodePackets fuel (index + l.length) l') := by
  induction l with
  | nil => exact fun index s ↦ rfl
  | cons head l ih =>
    intro index s
    obtain ⟨p, now⟩ := head
    rw [List.cons_append, decodePackets, decodePackets, Option.bind_assoc]
    congr 1
    funext s'
    rw [ih, List.length_cons, Nat.add_assoc, Nat.add_comm 1]

/-- Every request finds no binding for its identifier, which is not the free mark, and a slot to
store its own in. -/
def Admissible (capture : List Captured) : Prop :=
  ∀ before c after teid imsi, capture = before ++ c :: after → c.content = .request teid imsi →
    teid ≠ 0 ∧ ∀ fuel s, decodePackets fuel 0 (before.map Captured.input) State.init = some s →
      (∀ i < imsiMapSize, s.table.bound teid i = false) ∧
        ∃ i < imsiMapSize, s.table.reusable c.now i = true

theorem Admissible.of_append {l l' : List Captured} (h : Admissible (l ++ l')) : Admissible l := by
  intro before c after teid imsi heq
  exact h before c (after ++ l') teid imsi (by rw [heq, List.append_assoc, List.cons_append])

/-! ## What the handler does to the table -/

/-- The slots after a request has been handled. -/
def Table.afterRequest (t : Table) (now : ℤ) (teid : UInt32) (imsi : String) : Table :=
  match firstIndex (t.reusable now) imsiMapSize 0 with
  | none => t
  | some i => t.bind i teid now imsi

section Visits

variable {m : Message}

private theorem foldl_visitsFrom_keeps {α : Type} (part : State → α) {es : List Element}
    (hkeep : ∀ e ∈ es, ∀ offset s, part (visit m ⟨e.entry.id, offset, e.body.length⟩ s) = part s) :
    ∀ (offset : ℕ) (s : State),
      part ((visitsFrom offset es).foldl (fun s v ↦ visit m v s) s) = part s := by
  induction es with
  | nil => exact fun offset s ↦ rfl
  | cons e es ih =>
    intro offset s
    rw [visitsFrom, List.foldl_cons, ih fun e' he' ↦ hkeep e' (List.mem_cons_of_mem _ he'),
      hkeep e List.mem_cons_self]

/-- In a request, elements other than IMSI and control plane identifier at most print. -/
private theorem visit_request_keeps (hm : m.isRequest) {v : ElementVisit} {s : State}
    (himsi : v.ie ≠ gtpv1IeImsi) (hteid : v.ie ≠ gtpv1IeTeiControlPlane) :
    ((visit m v s).imsistr, (visit m v s).table) = (s.imsistr, s.table) := by
  have hresponse : ¬ m.isResponse := fun h ↦ absurd (hm.symm.trans h) (by decide)
  unfold visit
  simp only [himsi, hteid, if_false, false_and]
  split
  · rw [printAddress, if_neg hresponse]
  · rfl

/-- In a response, elements other than an end user address touch neither table nor output. -/
private theorem visit_response_keeps (hm : m.isResponse) {v : ElementVisit} {s : State}
    (heua : v.ie ≠ gtpv1IeEndUserAddress) :
    ((visit m v s).table, (visit m v s).history) = (s.table, s.history) := by
  have hrequest : ¬ m.isRequest := fun h ↦ absurd (h.symm.trans hm) (by decide)
  unfold visit
  simp only [heua, hrequest, if_false, false_and, and_false]
  split <;> rfl

private theorem visit_imsi {offset length : ℕ} {s : State} :
    visit m ⟨gtpv1IeImsi, offset, length⟩ s
      = { s with imsistr := imsi2str m.packet.data (m.gtp + offset) } := by
  simp [visit, gtpv1IeImsi, gtpv1IeTeiControlPlane, gtpv1IeEndUserAddress]

private theorem visit_teid (hm : m.isRequest) {offset length : ℕ} {s : State} :
    visit m ⟨gtpv1IeTeiControlPlane, offset, length⟩ s
      = storeBinding m (teid2uint m.packet.data (m.gtp + offset)) s := by
  simp [visit, gtpv1IeImsi, gtpv1IeTeiControlPlane, gtpv1IeEndUserAddress, hm]

private theorem visit_eua {offset length : ℕ} {s : State} :
    visit m ⟨gtpv1IeEndUserAddress, offset, length⟩ s
      = if gtpv1EuaNoAddressLength < gtpv1EuaLength m.packet.data (m.gtp + offset)
        then printAddress m (m.gtp + offset) s else s := by
  simp [visit, gtpv1IeImsi, gtpv1IeTeiControlPlane, gtpv1IeEndUserAddress]

private theorem storeBinding_table {teid : UInt32} {s : State} :
    (storeBinding m teid s).table = s.table.afterRequest m.now teid s.imsistr := by
  unfold storeBinding Table.afterRequest
  cases firstIndex (s.table.reusable m.now) imsiMapSize 0 <;> rfl

private theorem foldl_request (hm : m.isRequest) {front between back : List Element}
    {imsi : Imsi} {teid : UInt32} {offset : ℕ}
    (hothers : ∀ e ∈ front ++ between ++ back,
      e.entry.id ≠ gtpv1IeImsi ∧ e.entry.id ≠ gtpv1IeTeiControlPlane)
    (himsi : imsi2str m.packet.data (m.gtp + (offset + (elementOctets front).length)) = imsi.text)
    (hteid : teid2uint m.packet.data (m.gtp + (offset
      + (elementOctets (front ++ imsiElement imsi :: between)).length)) = teid) (s : State) :
    ((visitsFrom offset (front ++ imsiElement imsi :: (between ++ teidElement teid :: back))).foldl
      (fun s v ↦ visit m v s) s).table = s.table.afterRequest m.now teid imsi.text := by
  have hkeep : ∀ es ⊆ front ++ between ++ back, ∀ (offset : ℕ) (s : State),
      ((visitsFrom offset es).foldl (fun s v ↦ visit m v s) s).imsistr = s.imsistr ∧
        ((visitsFrom offset es).foldl (fun s v ↦ visit m v s) s).table = s.table := by
    intro es hes offset s
    exact Prod.mk.inj (foldl_visitsFrom_keeps (fun s ↦ (s.imsistr, s.table)) (fun e he offset s ↦
      visit_request_keeps hm (hothers e (hes he)).1 (hothers e (hes he)).2) offset s)
  have hoffset : offset + (elementOctets front).length + (imsiElement imsi).octets.length
      + (elementOctets between).length
      = offset + (elementOctets (front ++ imsiElement imsi :: between)).length := by
    rw [elementOctets_append, elementOctets_cons, List.length_append, List.length_append]
    omega
  rw [visitsFrom_append, List.foldl_append, visitsFrom, List.foldl_cons, visitsFrom_append,
    List.foldl_append, visitsFrom, List.foldl_cons, (hkeep back (by simp) _ _).2, hoffset]
  simp only [imsiElement_id, teidElement_id, visit_teid hm, storeBinding_table, visit_imsi]
  rw [(hkeep between (by simp) _ _).1, (hkeep between (by simp) _ _).2, hteid]
  simp only [(hkeep front (by simp) _ _).2, himsi]

end Visits

/-- A request stores its IMSI in the first slot that is free or expired. -/
theorem decodeGtpPacket_request {p : Packet} {teid : UInt32} {imsi : Imsi}
    (hc : Carries p (.request teid imsi)) {fuel : ℕ} (hfuel : 2 ^ 16 ≤ fuel) (index : ℕ) (now : ℤ)
    (s : State) :
    ∃ s', decodeGtpPacket fuel index p now s = some s' ∧
      s'.table = s.table.afterRequest now teid imsi.text := by
  obtain ⟨gtp, front, between, back, hwf, htype, hothers⟩ := hc
  have hassoc : front ++ imsiElement imsi :: (between ++ teidElement teid :: back)
      = (front ++ imsiElement imsi :: between) ++ teidElement teid :: back := by
    rw [List.append_assoc, List.cons_append]
  refine ⟨_, decodeGtpPacket_of_wellFormed hwf (by simp) (.inl htype)
    (hwf.length_le.trans hfuel) index now s, ?_⟩
  exact foldl_request (m := ⟨index, p, gtp, now⟩) htype hothers
    (imsi2str_of_octets (Memory.holds_cons.mp hwf.holds_element).2)
    (be32_of_teidOctets (Memory.holds_cons.mp (hassoc ▸ hwf).holds_element).2) _

/-- What a response to `teid` leaves of a state: an end user address prints the IMSI bound to the
identifier, if there is one, and frees its slot. -/
def afterResponse (index : ℕ) (teid : UInt32) (addressed : Bool) (s s' : State) : Prop :=
  if addressed then
    ∃ line, s'.history = s.history ++ [.printed index line] ∧ line.response = some teid ∧
      match firstIndex (s.table.bound teid) imsiMapSize 0 with
      | none => s'.table = s.table ∧ line.imsi = none
      | some i => s'.table = s.table.free i ∧ line.imsi = some (s.table.imsi i)
  else s'.table = s.table ∧ s'.history = s.history

private theorem afterResponse_congr {index : ℕ} {teid : UInt32} {addressed : Bool}
    {s s₁ s₂ s' : State} (ht : s₁.table = s.table) (hh : s₁.history = s.history)
    (ht' : s'.table = s₂.table) (hh' : s'.history = s₂.history)
    (h : afterResponse index teid addressed s₁ s₂) : afterResponse index teid addressed s s' := by
  unfold afterResponse at h ⊢
  rwa [ht', hh', ← ht, ← hh]

private theorem printAddress_afterResponse {m : Message} (hm : m.isResponse) {pos : ℕ} {s : State} :
    afterResponse m.index (headerTeid m.packet.data m.gtp) true s (printAddress m pos s) := by
  unfold afterResponse printAddress
  rw [if_pos rfl, if_pos hm]
  cases firstIndex (s.table.bound (headerTeid m.packet.data m.gtp)) imsiMapSize 0 with
  | none => exact ⟨_, rfl, if_pos hm, rfl, rfl⟩
  | some i => exact ⟨_, rfl, if_pos hm, rfl, rfl⟩

private theorem foldl_response {m : Message} (hm : m.isResponse) {front back : List Element}
    {eua : Element} {addressed : Bool} {offset : ℕ} (heua : eua.entry.id = gtpv1IeEndUserAddress)
    (hothers : ∀ e ∈ front ++ back, e.entry.id ≠ gtpv1IeEndUserAddress)
    (hlength : gtpv1EuaLength m.packet.data (m.gtp + (offset + (elementOctets front).length))
      = eua.body.length)
    (haddressed : addressed = decide (gtpv1EuaNoAddressLength < eua.body.length)) (s : State) :
    afterResponse m.index (headerTeid m.packet.data m.gtp) addressed s
      ((visitsFrom offset (front ++ eua :: back)).foldl (fun s v ↦ visit m v s) s) := by
  have hkeep : ∀ es ⊆ front ++ back, ∀ (offset : ℕ) (s : State),
      ((visitsFrom offset es).foldl (fun s v ↦ visit m v s) s).table = s.table ∧
        ((visitsFrom offset es).foldl (fun s v ↦ visit m v s) s).history = s.history := by
    intro es hes offset s
    exact Prod.mk.inj (foldl_visitsFrom_keeps (fun s ↦ (s.table, s.history)) (fun e he offset s ↦
      visit_response_keeps hm (hothers e (hes he))) offset s)
  obtain ⟨hfrontTable, hfrontHistory⟩ := hkeep front (by simp) offset s
  rw [visitsFrom_append, List.foldl_append, visitsFrom, List.foldl_cons]
  obtain ⟨hbackTable, hbackHistory⟩ := hkeep back (by simp)
    (offset + (elementOctets front).length + eua.octets.length)
    (visit m ⟨eua.entry.id, offset + (elementOctets front).length, eua.body.length⟩
      ((visitsFrom offset front).foldl (fun s v ↦ visit m v s) s))
  refine afterResponse_congr hfrontTable hfrontHistory hbackTable hbackHistory ?_
  rw [heua, visit_eua, hlength]
  by_cases hlt : gtpv1EuaNoAddressLength < eua.body.length
  · rw [if_pos hlt, haddressed, decide_eq_true hlt]
    exact printAddress_afterResponse hm
  · rw [if_neg hlt, haddressed, decide_eq_false hlt]
    exact ⟨rfl, rfl⟩

/-- A response prints its end user address, with the IMSI bound to its identifier. -/
theorem decodeGtpPacket_response {p : Packet} {teid : UInt32} {addressed : Bool}
    (hc : Carries p (.response teid addressed)) {fuel : ℕ} (hfuel : 2 ^ 16 ≤ fuel) (index : ℕ)
    (now : ℤ) (s : State) :
    ∃ s', decodeGtpPacket fuel index p now s = some s' ∧
      afterResponse index teid addressed s s' := by
  obtain ⟨gtp, front, eua, back, hwf, htype, rfl, heua, haddressed, hothers⟩ := hc
  have hlength : gtpv1EuaLength p.data (gtp + (firstElementOffset p.data gtp
      + (elementOctets front).length)) = eua.body.length := by
    have hholds := hwf.holds_element
    rw [Element.octets, heua, if_neg (by decide)] at hholds
    exact Memory.be16_of_holds eua.length_lt (Memory.holds_cons.mp hholds).2
  refine ⟨_, decodeGtpPacket_of_wellFormed hwf (by simp) (.inr htype)
    (hwf.length_le.trans hfuel) index now s, ?_⟩
  exact foldl_response (m := ⟨index, p, gtp, now⟩) htype heua hothers hlength haddressed _

theorem decodeGtpPacket_other {p : Packet} (hc : Carries p .other) (fuel index : ℕ) (now : ℤ)
    (s : State) : decodeGtpPacket fuel index p now s = some s := by
  unfold decodeGtpPacket
  cases hfound : gtpv1GetHeader p.header.caplen p.data with
  | none => rfl
  | some gtp => exact if_neg (hc gtp hfound)

/-! ## Outstanding bindings -/

/-- Slot `i`, and no other slot, binds `teid`; it was bound at time `bound` to the text `imsi`. -/
structure Table.Outstanding (t : Table) (i : ℕ) (teid : UInt32) (bound : ℤ) (imsi : String) :
    Prop where
  /-- The slot exists. -/
  index_lt : i < imsiMapSize
  /-- The slot binds the identifier. -/
  imsiMap_eq : t.imsiMap i = teid.toInt32
  /-- The time of the binding. -/
  imsiTime_eq : t.imsiTime i = bound
  /-- The row shows the IMSI. -/
  shows : t.Shows i imsi
  /-- No other slot binds the identifier. -/
  unique : ∀ j < imsiMapSize, t.imsiMap j = teid.toInt32 → j = i

section Outstanding

variable {t : Table} {i : ℕ} {teid : UInt32} {bound : ℤ} {imsi : String}

theorem fits_text (imsi : Imsi) : Fits imsi.text := by
  refine ⟨by rw [Imsi.length_text]; decide, fun hmem ↦ ?_⟩
  have hdata : imsi2str (Memory.ofList ([0] ++ imsi.octets)) 0 = imsi.text :=
    imsi2str_of_octets (Memory.holds_ofList_append [0] imsi.octets)
  rw [← hdata] at hmem
  exact absurd (isDigit_of_mem_imsi2str _ hmem) (by decide)

theorem Table.exists_outstanding_afterRequest {now : ℤ} (imsi : Imsi)
    (hfree : ∀ j < imsiMapSize, t.bound teid j = false)
    (hslot : ∃ j < imsiMapSize, t.reusable now j = true) :
    ∃ i, (t.afterRequest now teid imsi.text).Outstanding i teid now imsi.text := by
  obtain ⟨j, hj, hreusable⟩ := hslot
  obtain ⟨i, hscan⟩ := exists_firstIndex (n := imsiMapSize) (i := 0) hreusable (Nat.zero_le _)
    (by omega)
  obtain ⟨-, -, hi⟩ := firstIndex_eq_some hscan
  rw [Table.afterRequest, hscan]
  refine ⟨i, by omega, t.imsiMap_bind_self, t.imsiTime_bind_self,
    Table.shows_bind (fits_text imsi), fun k hk hmap ↦ ?_⟩
  by_contra hki
  rw [t.imsiMap_bind_of_ne hki, ← Table.bound_iff, hfree k hk] at hmap
  cases hmap

/-- A request for another identifier takes another slot while the binding has not expired. -/
theorem Table.Outstanding.afterRequest (h : t.Outstanding i teid bound imsi) (hteid : teid ≠ 0)
    {now : ℤ} (hnow : now ≤ bound + imsiTimeout) {teid' : UInt32} (hne : teid' ≠ teid)
    (imsi' : Imsi) :
    (t.afterRequest now teid' imsi'.text).Outstanding i teid bound imsi := by
  unfold Table.afterRequest
  cases hscan : firstIndex (t.reusable now) imsiMapSize 0 with
  | none => exact h
  | some j =>
    obtain ⟨hreusable, -, -⟩ := firstIndex_eq_some hscan
    have hij : i ≠ j := by
      rintro rfl
      rcases Table.reusable_iff.mp hreusable with hzero | hexpired
      · exact toInt32_ne_zero hteid (h.imsiMap_eq.symm.trans hzero)
      · rw [h.imsiTime_eq] at hexpired
        omega
    refine ⟨h.index_lt, (t.imsiMap_bind_of_ne hij).trans h.imsiMap_eq,
      (t.imsiTime_bind_of_ne hij).trans h.imsiTime_eq,
      h.shows.bind_of_ne teid' now (fits_text imsi') hij, fun k hk hmap ↦ ?_⟩
    by_cases hkj : k = j
    · subst hkj
      rw [t.imsiMap_bind_self] at hmap
      exact absurd (toInt32_injective hmap) hne
    · rw [t.imsiMap_bind_of_ne hkj] at hmap
      exact h.unique k hk hmap

theorem Table.Outstanding.free (h : t.Outstanding i teid bound imsi) (hteid : teid ≠ 0) {j : ℕ}
    (hj : t.imsiMap j ≠ teid.toInt32) : (t.free j).Outstanding i teid bound imsi := by
  have hij : i ≠ j := by
    rintro rfl
    exact hj h.imsiMap_eq
  refine ⟨h.index_lt, (t.imsiMap_free_of_ne hij).trans h.imsiMap_eq, h.imsiTime_eq, h.shows.free,
    fun k hk hmap ↦ ?_⟩
  by_cases hkj : k = j
  · subst hkj
    rw [t.imsiMap_free_self] at hmap
    exact absurd hmap.symm (toInt32_ne_zero hteid)
  · rw [t.imsiMap_free_of_ne hkj] at hmap
    exact h.unique k hk hmap

theorem Table.Outstanding.firstIndex_eq (h : t.Outstanding i teid bound imsi) :
    firstIndex (t.bound teid) imsiMapSize 0 = some i :=
  firstIndex_of_unique h.index_lt (Table.bound_iff.mpr h.imsiMap_eq)
    fun j hj hbound ↦ h.unique j hj (Table.bound_iff.mp hbound)

theorem Table.Outstanding.firstIndex_free_eq (h : t.Outstanding i teid bound imsi)
    (hteid : teid ≠ 0) : firstIndex ((t.free i).bound teid) imsiMapSize 0 = none := by
  cases hscan : firstIndex ((t.free i).bound teid) imsiMapSize 0 with
  | none => rfl
  | some j =>
    obtain ⟨hbound, -, hj⟩ := firstIndex_eq_some hscan
    rw [Table.bound_iff] at hbound
    by_cases hji : j = i
    · rw [hji, t.imsiMap_free_self] at hbound
      exact absurd hbound.symm (toInt32_ne_zero hteid)
    · rw [t.imsiMap_free_of_ne hji] at hbound
      exact absurd (h.unique j (by omega) hbound) hji

end Outstanding

/-! ## Runs over a capture -/

section Capture

variable {fuel : ℕ}

theorem exists_decodePackets (hfuel : 2 ^ 16 ≤ fuel) (capture : List Captured) :
    ∀ (index : ℕ) (s : State),
      ∃ s', decodePackets fuel index (capture.map Captured.input) s = some s' := by
  induction capture with
  | nil => exact fun index s ↦ ⟨s, rfl⟩
  | cons c capture ih =>
    intro index s
    obtain ⟨s', hs'⟩ : ∃ s', decodeGtpPacket fuel index c.packet c.now s = some s' := by
      have hcarries := c.carries
      cases hcontent : c.content with
      | request teid imsi =>
        rw [hcontent] at hcarries
        obtain ⟨s', hs', -⟩ := decodeGtpPacket_request hcarries hfuel index c.now s
        exact ⟨s', hs'⟩
      | response teid addressed =>
        rw [hcontent] at hcarries
        obtain ⟨s', hs', -⟩ := decodeGtpPacket_response hcarries hfuel index c.now s
        exact ⟨s', hs'⟩
      | other =>
        rw [hcontent] at hcarries
        exact ⟨s, decodeGtpPacket_other hcarries fuel index c.now s⟩
    obtain ⟨s'', hs''⟩ := ih (index + 1) s'
    refine ⟨s'', ?_⟩
    rw [List.map_cons, Captured.input, decodePackets, hs', Option.bind_some, hs'']

theorem decodePackets_concat {capture : List Captured} {c : Captured} {s s' : State}
    (hs : decodePackets fuel 0 (capture.map Captured.input) State.init = some s)
    (hc : decodeGtpPacket fuel capture.length c.packet c.now s = some s') :
    decodePackets fuel 0 ((capture ++ [c]).map Captured.input) State.init = some s' := by
  rw [List.map_append, decodePackets_append, hs, Option.bind_some, List.length_map, Nat.zero_add,
    List.map_cons, List.map_nil, Captured.input, decodePackets, hc]
  rfl

variable (before between : List Captured) {request : Captured} {teid : UInt32} {imsi : Imsi}

/-- A request leaves a binding, which stays until the first response that uses it up. The induction
is on the packets after the request, from the last one backwards. -/
theorem exists_outstanding (hfuel : 2 ^ 16 ≤ fuel)
    (hadmissible : Admissible (before ++ request :: between))
    (hrequest : request.content = .request teid imsi)
    (hunused : ∀ c ∈ between, c.content ≠ .response teid true)
    (hclock : ∀ c ∈ between, c.now ≤ request.now + imsiTimeout) :
    ∃ s i, decodePackets fuel 0 ((before ++ request :: between).map Captured.input) State.init
        = some s ∧
      s.table.Outstanding i teid request.now imsi.text := by
  have hteid : teid ≠ 0 := (hadmissible before request between teid imsi rfl hrequest).1
  induction between using List.reverseRecOn with
  -- the request itself takes a slot
  | nil =>
    obtain ⟨s, hs⟩ := exists_decodePackets hfuel before 0 State.init
    obtain ⟨hfree, hslot⟩ := (hadmissible before request [] teid imsi rfl hrequest).2 fuel s hs
    obtain ⟨s', hs', htable⟩ := decodeGtpPacket_request (hrequest ▸ request.carries) hfuel
      before.length request.now s
    obtain ⟨i, hi⟩ := Table.exists_outstanding_afterRequest imsi hfree hslot
    exact ⟨s', i, decodePackets_concat hs hs', htable ▸ hi⟩
  | append_singleton between c ih =>
    have hassoc : before ++ request :: (between ++ [c])
        = (before ++ request :: between) ++ [c] := by
      rw [List.append_assoc, List.cons_append]
    rw [hassoc] at hadmissible
    obtain ⟨s, i, hs, hout⟩ := ih hadmissible.of_append
      (fun c' hc' ↦ hunused c' (List.mem_append_left _ hc'))
      (fun c' hc' ↦ hclock c' (List.mem_append_left _ hc'))
    have hcarries := c.carries
    rw [hassoc]
    cases hcontent : c.content with
    | request teid' imsi' =>
      obtain ⟨-, hfind⟩ := hadmissible _ c [] teid' imsi' rfl hcontent
      -- another request: its identifier is not bound yet, so it is not the one of the binding
      have hne : teid' ≠ teid := by
        rintro rfl
        have hunbound := (hfind fuel s hs).1 i hout.index_lt
        rw [Table.bound_iff.mpr hout.imsiMap_eq] at hunbound
        cases hunbound
      obtain ⟨s', hs', htable⟩ := decodeGtpPacket_request (hcontent ▸ hcarries) hfuel _ c.now s
      refine ⟨s', i, decodePackets_concat hs hs', htable ▸ ?_⟩
      exact hout.afterRequest hteid (hclock c (by simp)) hne imsi'
    | response teid' addressed =>
      -- a response for another identifier, or without an address to print
      obtain ⟨s', hs', hafter⟩ := decodeGtpPacket_response (hcontent ▸ hcarries) hfuel _ c.now s
      refine ⟨s', i, decodePackets_concat hs hs', ?_⟩
      cases addressed with
      | false => exact hafter.1 ▸ hout
      | true =>
        have hne : teid' ≠ teid := fun heq ↦ hunused c (by simp) (heq ▸ hcontent)
        obtain ⟨line, -, -, hmatch⟩ := hafter
        cases hscan : firstIndex (s.table.bound teid') imsiMapSize 0 with
        | none =>
          rw [hscan] at hmatch
          exact hmatch.1 ▸ hout
        | some j =>
          rw [hscan] at hmatch
          have hbound := Table.bound_iff.mp (firstIndex_eq_some hscan).1
          rw [hmatch.1]
          exact hout.free hteid fun hmap ↦ hne (toInt32_injective (hbound.symm.trans hmap))
    | other =>
      exact ⟨s, i, decodePackets_concat hs
        (decodeGtpPacket_other (hcontent ▸ hcarries) fuel _ c.now s), hout⟩

/-- A response with an end user address uses the binding of its identifier up. -/
theorem decodeGtpPacket_outstanding (hfuel : 2 ^ 16 ≤ fuel) {s : State} {i : ℕ} {bound : ℤ}
    (hout : s.table.Outstanding i teid bound imsi.text) {p : Packet}
    (hc : Carries p (.response teid true)) (index : ℕ) (now : ℤ) :
    ∃ s' line, decodeGtpPacket fuel index p now s = some s' ∧
      s'.history = s.history ++ [.printed index line] ∧ line.imsi = some imsi.text ∧
      s'.table = s.table.free i := by
  obtain ⟨s', hs', line, hhistory, -, hmatch⟩ := decodeGtpPacket_response hc hfuel index now s
  rw [hout.firstIndex_eq] at hmatch
  exact ⟨s', line, hs', hhistory, hmatch.2.trans (by rw [hout.shows.imsi_eq hout.index_lt]),
    hmatch.1⟩

/-- **The correlation is complete within the timeout.** Let a request for `teid` be followed by
packets none of which is a response to `teid` with an end user address, and let no clock reading
since the request exceed its time by more than the timeout. Then the next response to `teid` with
an end user address prints one line, with the IMSI of that request, and frees only the slot that
binds `teid`. -/
theorem imsi_correlation_complete (hfuel : 2 ^ 16 ≤ fuel)
    (hadmissible : Admissible (before ++ request :: between))
    (hrequest : request.content = .request teid imsi)
    (hunused : ∀ c ∈ between, c.content ≠ .response teid true)
    (hclock : ∀ c ∈ between, c.now ≤ request.now + imsiTimeout) (response : Captured)
    (hresponse : response.content = .response teid true) :
    ∃ s s' i line,
      decodePackets fuel 0 ((before ++ request :: between).map Captured.input) State.init
        = some s ∧
      decodeGtpPacket fuel (before ++ request :: between).length response.packet response.now s
        = some s' ∧
      s'.history = s.history ++ [.printed (before ++ request :: between).length line] ∧
      line.imsi = some imsi.text ∧
      i < imsiMapSize ∧ s.table.bound teid i = true ∧ s'.table = s.table.free i := by
  obtain ⟨s, i, hs, hout⟩ := exists_outstanding before between hfuel hadmissible hrequest hunused
    hclock
  obtain ⟨s', line, hs', hhistory, himsi, htable⟩ :=
    decodeGtpPacket_outstanding hfuel hout (hresponse ▸ response.carries) _ response.now
  exact ⟨s, s', i, line, hs, hs', hhistory, himsi, hout.index_lt,
    Table.bound_iff.mpr hout.imsiMap_eq, htable⟩

end Capture

/-! ## Repeated responses -/

theorem carries_createPdpContextRequest (imsi : Imsi) (teid : UInt32) :
    Carries (createPdpContextRequest imsi teid) (.request teid imsi) :=
  ⟨42, [], [], [], wellFormed_gtpcFrame _ _ _ (show 14 < 2 ^ 16 by norm_num), rfl, by simp⟩

theorem carries_createPdpContextResponse (teid : UInt32) :
    Carries (createPdpContextResponse teid) (.response teid true) := by
  have hholds : (createPdpContextResponse teid).data.Holds 46
      (teidOctets teid ++ elementOctets [euaElement 10 0 0 1]) :=
    Memory.holds_ofList_append ((gtpcHeaders gtpv1MtCreatePdpContextResponse 9 []).take 46) _
  exact ⟨42, [], euaElement 10 0 0 1, [], wellFormed_gtpcFrame _ _ _ (show 9 < 2 ^ 16 by norm_num),
    rfl, be32_of_teidOctets (Memory.holds_append.mp hholds).1, rfl, rfl, by simp⟩

/-- A request captured at time zero. -/
def capturedRequest (imsi : Imsi) (teid : UInt32) : Captured :=
  ⟨createPdpContextRequest imsi teid, 0, _, carries_createPdpContextRequest imsi teid⟩

/-- A response captured at time zero. -/
def capturedResponse (teid : UInt32) : Captured :=
  ⟨createPdpContextResponse teid, 0, _, carries_createPdpContextResponse teid⟩

/-- A packet without a message. -/
def capturedOther : Captured :=
  ⟨⟨⟨0, 0, 0, 0⟩, fun _ ↦ 0⟩, 0, .other, fun _ h ↦ nomatch h⟩

theorem decodePackets_other (capture : List Captured) (h : ∀ c ∈ capture, c.content = .other)
    (index : ℕ) (s : State) :
    decodePackets fuel index (capture.map Captured.input) s = some s := by
  induction capture generalizing index with
  | nil => rfl
  | cons c capture ih =>
    have hc : Carries c.packet .other := h c List.mem_cons_self ▸ c.carries
    change (decodeGtpPacket fuel index c.packet c.now s).bind _ = some s
    rw [decodeGtpPacket_other hc, Option.bind_some]
    exact ih (fun d hd ↦ h d (List.mem_cons_of_mem _ hd)) (index + 1)

theorem admissible_request {imsi : Imsi} {teid : UInt32} (hteid : teid ≠ 0) (front : List Captured)
    (hfront : ∀ c ∈ front, c.content = .other) {rest : List Captured}
    (hrest : ∀ c ∈ rest, ∀ teid imsi, c.content ≠ .request teid imsi) :
    Admissible (front ++ capturedRequest imsi teid :: rest) := by
  intro before c after teid' imsi' heq hcontent
  -- the request is where the two splits agree
  obtain ⟨rfl, rfl⟩ : before = front ∧ c = capturedRequest imsi teid := by
    rcases List.append_eq_append_iff.mp heq with ⟨l, rfl, hl⟩ | ⟨l, rfl, hl⟩
    · cases l with
      | nil => exact ⟨List.append_nil _, (List.cons.inj hl).1.symm⟩
      | cons d l =>
        have hmem : c ∈ rest := by
          rw [(List.cons.inj hl).2]
          simp
        exact absurd hcontent (hrest c hmem teid' imsi')
    · cases l with
      | nil => exact ⟨(List.append_nil _).symm, (List.cons.inj hl).1⟩
      | cons d l =>
        obtain ⟨rfl, -⟩ := List.cons.inj hl
        cases hcontent.symm.trans (hfront c (by simp))
  obtain ⟨rfl, rfl⟩ := Content.request.inj hcontent
  refine ⟨hteid, fun fuel s hs ↦ ?_⟩
  rw [decodePackets_other before hfront] at hs
  obtain rfl := Option.some.inj hs
  refine ⟨fun i _ ↦ ?_, 0, by decide, Table.reusable_iff.mpr (.inl rfl)⟩
  exact decide_eq_false fun hzero ↦ hteid hzero.symm

/-- A second response to the same identifier within the timeout is printed without an IMSI: the
first one has used the binding up. -/
theorem imsi_correlation_duplicate_response :
    Admissible [capturedRequest (fun _ ↦ 1) 5, capturedResponse 5, capturedResponse 5] ∧
    ∃ s s' line,
      decodePackets (2 ^ 16) 0
        ([capturedRequest (fun _ ↦ 1) 5, capturedResponse 5].map Captured.input) State.init
        = some s ∧
      decodeGtpPacket (2 ^ 16) 2 (capturedResponse 5).packet (capturedResponse 5).now s = some s' ∧
      s'.history = s.history ++ [.printed 2 line] ∧ line.imsi = none := by
  have hadmissible : ∀ rest ⊆ [capturedResponse 5, capturedResponse 5],
      Admissible (capturedRequest (fun _ ↦ 1) 5 :: rest) := by
    intro rest hrest
    refine admissible_request (by decide) [] (List.forall_mem_nil _) fun c hc teid imsi ↦ ?_
    have hc' : c = capturedResponse 5 := by simpa using hrest hc
    rw [hc']
    exact fun h ↦ nomatch h
  refine ⟨hadmissible _ (List.Subset.refl _), ?_⟩
  obtain ⟨s, i, hs, hout⟩ := exists_outstanding [] [] (le_refl _) (hadmissible [] (by simp)) rfl
    (by simp) (by simp)
  obtain ⟨s₁, line₁, hs₁, -, -, htable₁⟩ := decodeGtpPacket_outstanding (le_refl _) hout
    (carries_createPdpContextResponse 5) 1 0
  obtain ⟨s₂, hs₂, line, hhistory, -, hmatch⟩ := decodeGtpPacket_response
    (carries_createPdpContextResponse 5) (le_refl _) 2 0 s₁
  rw [htable₁, hout.firstIndex_free_eq (by decide)] at hmatch
  exact ⟨s₁, s₂, line, decodePackets_concat (c := capturedResponse 5) hs hs₁, hs₂, hhistory,
    hmatch.2⟩

/-- A request and its response within the timeout, with a response to another identifier and packets
without a message in front of the request and between the two. -/
theorem imsi_correlation_complete_response :
    ∃ s s' i line,
      decodePackets (2 ^ 16) 0 ([capturedOther, capturedRequest (fun _ ↦ 1) 5, capturedResponse 7,
        capturedOther].map Captured.input) State.init = some s ∧
      decodeGtpPacket (2 ^ 16) 4 (capturedResponse 5).packet (capturedResponse 5).now s = some s' ∧
      s'.history = s.history ++ [.printed 4 line] ∧
      line.imsi = some (Imsi.text fun _ ↦ 1) ∧
      i < imsiMapSize ∧ s.table.bound 5 i = true ∧ s'.table = s.table.free i := by
  have hadmissible : Admissible ([capturedOther] ++ capturedRequest (fun _ ↦ 1) 5 ::
      [capturedResponse 7, capturedOther]) := by
    refine admissible_request (by decide) _ (by simp [capturedOther]) ?_
    simp [capturedOther, capturedResponse]
  have hother : ∀ c ∈ [capturedResponse 7, capturedOther],
      c.content ≠ .response 5 true ∧ c.now ≤ imsiTimeout := by
    simp [capturedOther, capturedResponse, imsiTimeout]
  exact imsi_correlation_complete _ _ (le_refl _) hadmissible rfl (fun c hc ↦ (hother c hc).1)
    (fun c hc ↦ (hother c hc).2) (capturedResponse 5) rfl

end Gtpimsieua

end DistributorMerger
