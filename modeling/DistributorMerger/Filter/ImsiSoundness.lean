import DistributorMerger.Filter.ImsiTable
import DistributorMerger.Ledger.SingleUse

/-!
# Soundness of the IMSI correlation

An IMSI printed for a response should come from an earlier request for the response's identifier,
and each stored binding should be used up by the response that prints it. The stores and printed
lines form a ledger in which a store issues the pair of identifier and text, and a printed IMSI
redeems one; the table slots are what the program remembers of it.

The ledger breaks in one place. Identifier zero marks a free slot, so the scan for a response to
identifier zero stops at the first free slot and prints the text that a freed binding left there.
A second way to print a wrong text, one that is too long for its row, is excluded with it.
-/

namespace DistributorMerger

namespace Gtpimsieua

/-! ## Messages of the input -/

section Input

variable (packets : List (Packet × ℤ))

/-- Packet number `j` is a Create PDP Context Request in which the loop comes to a control plane
identifier element for `t`. -/
def RequestFor (j : ℕ) (t : UInt32) : Prop :=
  ∃ p now gtp v, packets[j]? = some (p, now) ∧
    gtpv1GetHeader p.header.caplen p.data = some gtp ∧
    messageType p.data gtp = gtpv1MtCreatePdpContextRequest ∧
    Visits p.header.caplen.toNat p.data gtp v ∧ v.ie = gtpv1IeTeiControlPlane ∧
    teid2uint p.data (gtp + v.offset) = t

/-- Packet number `j` is a Create PDP Context Response whose header carries `t`. -/
def ResponseFor (j : ℕ) (t : UInt32) : Prop :=
  ∃ p now gtp, packets[j]? = some (p, now) ∧
    gtpv1GetHeader p.header.caplen p.data = some gtp ∧
    messageType p.data gtp = gtpv1MtCreatePdpContextResponse ∧ headerTeid p.data gtp = t

/-- Every printed IMSI was stored by an earlier request for the identifier that the response
carries, and no stored binding is printed twice. -/
def Sound (history : List Event) : Prop :=
  ∃ origin : ℕ → ℕ,
    (∀ k m line imsi, history[k]? = some (.printed m line) → line.imsi = some imsi →
      ∃ t j, ResponseFor packets m t ∧ origin k < k ∧
        history[origin k]? = some (.stored j t imsi) ∧ j < m ∧ RequestFor packets j t) ∧
    Set.InjOn origin {k | ∃ m line, history[k]? = some (.printed m line) ∧ line.imsi.isSome}

/-- No response carries identifier zero, and no IMSI of a request is too long for its row. -/
structure Distinguishable : Prop where
  /-- Identifier zero, the mark of a free slot, does not occur in a response. -/
  teid_ne_zero : ∀ j t, ResponseFor packets j t → t ≠ 0
  /-- The IMSI elements of requests decode to texts that fit a row. -/
  imsi_fits : ∀ p now gtp v, (p, now) ∈ packets →
    gtpv1GetHeader p.header.caplen p.data = some gtp →
    messageType p.data gtp = gtpv1MtCreatePdpContextRequest →
    Visits p.header.caplen.toNat p.data gtp v → v.ie = gtpv1IeImsi →
    (imsi2str p.data (gtp + v.offset)).toList.length < rowLength

end Input

/-! ## The ledger -/

namespace Event

/-- The number of the packet an event belongs to. -/
def packet : Event → ℕ
  | stored j _ _ => j
  | printed j _ => j

/-- A store issues its identifier and text. -/
def issued : Event → Option (UInt32 × String)
  | stored _ t imsi => some (t, imsi)
  | printed _ _ => none

/-- A line with an IMSI redeems the identifier of its response and the text. -/
def redeemed : Event → Option (UInt32 × String)
  | stored _ _ _ => none
  | printed _ line => line.response.bind fun t ↦ line.imsi.map fun imsi ↦ (t, imsi)

/-- What an event says about its packet is so. -/
def Genuine (packets : List (Packet × ℤ)) : Event → Prop
  | stored j t _ => RequestFor packets j t
  | printed j line => line.imsi.isSome → ∃ t, line.response = some t ∧ ResponseFor packets j t

end Event

/-- The pair that slot `i` remembers. -/
def Table.live (t : Table) (i : ℕ) : Option (UInt32 × String) :=
  if i < imsiMapSize ∧ t.imsiMap i ≠ 0 then some ((t.imsiMap i).toUInt32, t.imsi i) else none

/-- The rows of the slots in use show their texts. -/
def Table.RowsShow (t : Table) : Prop :=
  ∀ i < imsiMapSize, t.imsiMap i ≠ 0 → t.Shows i (t.imsi i)

theorem Table.RowsShow.bind {t : Table} (h : t.RowsShow) {i : ℕ} {teid : UInt32} {now : ℤ}
    {s : String} (hi : i < imsiMapSize) (hs : Fits s) : (t.bind i teid now s).RowsShow := by
  intro j hj hmap
  by_cases hji : j = i
  · subst hji
    rw [(Table.shows_bind hs).imsi_eq hi]
    exact Table.shows_bind hs
  · rw [t.imsiMap_bind_of_ne hji] at hmap
    have hshows := (h j hj hmap).bind_of_ne teid now hs hji
    rwa [hshows.imsi_eq hj]

theorem Table.RowsShow.free {t : Table} (h : t.RowsShow) (i : ℕ) : (t.free i).RowsShow := by
  intro j hj hmap
  refine (h j hj fun hzero ↦ hmap ?_).free
  by_cases hji : j = i
  · rw [hji, t.imsiMap_free_self]
  · rw [t.imsiMap_free_of_ne hji, hzero]

/-- Binding a slot makes it remember the new pair, unless the identifier is the free mark. -/
theorem Table.live_bind {t : Table} (h : t.RowsShow) {i : ℕ} {teid : UInt32} {now : ℤ}
    {s : String} (hi : i < imsiMapSize) (hs : Fits s) :
    (t.bind i teid now s).live
      = Function.update t.live i (if teid = 0 then none else some (teid, s)) := by
  funext j
  by_cases hji : j = i
  · subst hji
    rw [Function.update_self, Table.live, (Table.shows_bind hs).imsi_eq hi]
    simp only [Table.imsiMap_bind_self, UInt32.toUInt32_toInt32, hi, true_and]
    by_cases hteid : teid = 0
    · rw [if_pos hteid, if_neg (by rw [hteid]; decide)]
    · rw [if_neg hteid, if_pos (toInt32_ne_zero hteid)]
  · rw [Function.update_of_ne hji, Table.live, Table.live, t.imsiMap_bind_of_ne hji]
    by_cases hlive : j < imsiMapSize ∧ t.imsiMap j ≠ 0
    · rw [if_pos hlive, if_pos hlive,
        ((h j hlive.1 hlive.2).bind_of_ne teid now hs hji).imsi_eq hlive.1]
    · rw [if_neg hlive, if_neg hlive]

theorem Table.live_free (t : Table) (i : ℕ) :
    (t.free i).live = Function.update t.live i none := by
  funext j
  by_cases hji : j = i
  · subst hji
    rw [Function.update_self, Table.live, t.imsiMap_free_self, if_neg fun h ↦ h.2 rfl]
  · rw [Function.update_of_ne hji, Table.live, Table.live, t.imsiMap_free_of_ne hji, t.imsi_free]

/-! ## What one visit preserves -/

/-- The ledger is in order while the packets below `begun` have been taken up. -/
structure State.InOrder (packets : List (Packet × ℤ)) (begun : ℕ) (s : State) : Prop where
  /-- The slots in use account for the history. -/
  accounted : Accounted Event.issued Event.redeemed s.history s.table.live
  /-- The rows of the slots in use show their texts. -/
  rows : s.table.RowsShow
  /-- Events stand in the order of their packets. -/
  sorted : s.history.Pairwise fun e e' ↦ e.packet ≤ e'.packet
  /-- There are no events of packets to come. -/
  packet_lt : ∀ e ∈ s.history, e.packet < begun
  /-- Events say what their packets are. -/
  genuine : ∀ e ∈ s.history, e.Genuine packets

/-- A message of the input. -/
structure Message.InHand (packets : List (Packet × ℤ)) (m : Message) : Prop where
  /-- The packet has the message's number. -/
  packet : packets[m.index]? = some (m.packet, m.now)
  /-- The header search finds the message. -/
  found : gtpv1GetHeader m.packet.header.caplen m.packet.data = some m.gtp

/-- The loop over the message comes to the element `v`. -/
def Message.HasElement (m : Message) (v : ElementVisit) : Prop :=
  Visits m.packet.header.caplen.toNat m.packet.data m.gtp v

section Visit

variable {packets : List (Packet × ℤ)} {m : Message} {s : State}

private theorem State.InOrder.concat {e : Event} {t : Table} {imsistr : String}
    (h : s.InOrder packets (m.index + 1))
    (hacc : Accounted Event.issued Event.redeemed (s.history ++ [e]) t.live) (hrows : t.RowsShow)
    (hpacket : e.packet = m.index) (hgen : e.Genuine packets) :
    State.InOrder packets (m.index + 1) ⟨imsistr, t, s.history ++ [e]⟩ := by
  refine ⟨hacc, hrows, ?_, ?_, ?_⟩
  · refine List.pairwise_append.mpr ⟨h.sorted, List.pairwise_singleton _ _, fun a ha b hb ↦ ?_⟩
    rw [List.mem_singleton.mp hb, hpacket]
    exact Nat.le_of_lt_succ (h.packet_lt a ha)
  · intro a ha
    rcases List.mem_append.mp ha with ha | ha
    · exact h.packet_lt a ha
    · rw [List.mem_singleton.mp ha, hpacket]
      exact Nat.lt_succ_self _
  · intro a ha
    rcases List.mem_append.mp ha with ha | ha
    · exact h.genuine a ha
    · rwa [List.mem_singleton.mp ha]

theorem storeBinding_inOrder (h : s.InOrder packets (m.index + 1)) {teid : UInt32}
    (hfits : Fits s.imsistr) (hrequest : RequestFor packets m.index teid) :
    (storeBinding m teid s).InOrder packets (m.index + 1) := by
  unfold storeBinding
  cases hscan : firstIndex (s.table.reusable m.now) imsiMapSize 0 with
  | none => exact h
  | some i =>
    obtain ⟨-, -, hi⟩ := firstIndex_eq_some hscan
    rw [Nat.zero_add] at hi
    refine h.concat ?_ (h.rows.bind hi hfits) rfl hrequest
    rw [Table.live_bind h.rows hi hfits]
    by_cases hteid : teid = 0
    · rw [if_pos hteid]
      exact (h.accounted.silent rfl).forget i
    · rw [if_neg hteid]
      exact h.accounted.issue rfl rfl i

theorem printAddress_inOrder (h : s.InOrder packets (m.index + 1)) {pos : ℕ}
    (hresponse : m.isResponse →
      ResponseFor packets m.index (headerTeid m.packet.data m.gtp) ∧
        headerTeid m.packet.data m.gtp ≠ 0) :
    (printAddress m pos s).InOrder packets (m.index + 1) := by
  have hplain : State.InOrder packets (m.index + 1)
      { s with history := s.history ++ [.printed m.index (m.line pos none)] } := by
    refine h.concat (h.accounted.silent ?_) h.rows rfl fun hsome ↦ nomatch hsome
    simp [Event.redeemed, Message.line]
  unfold printAddress
  by_cases hr : m.isResponse
  · rw [if_pos hr]
    obtain ⟨hfor, hne⟩ := hresponse hr
    cases hscan : firstIndex (s.table.bound (headerTeid m.packet.data m.gtp)) imsiMapSize 0 with
    | none => exact hplain
    | some i =>
      obtain ⟨hbound, -, hi⟩ := firstIndex_eq_some hscan
      rw [Nat.zero_add] at hi
      rw [Table.bound_iff] at hbound
      -- the slot is in use because the identifier is not the free mark
      have hlive : s.table.live i = some (headerTeid m.packet.data m.gtp, s.table.imsi i) := by
        rw [Table.live, hbound, if_pos ⟨hi, toInt32_ne_zero hne⟩, UInt32.toUInt32_toInt32]
      refine h.concat ?_ (h.rows.free i) rfl fun _ ↦ ⟨_, if_pos hr, hfor⟩
      rw [Table.live_free]
      refine h.accounted.redeem hlive ?_
      simp [Event.redeemed, Message.line, hr]
  · rw [if_neg hr]
    exact hplain

@[simp] theorem storeBinding_imsistr (teid : UInt32) :
    (storeBinding m teid s).imsistr = s.imsistr := by
  unfold storeBinding
  split <;> rfl

@[simp] theorem printAddress_imsistr (pos : ℕ) : (printAddress m pos s).imsistr = s.imsistr := by
  unfold printAddress
  split
  · split <;> rfl
  · rfl

theorem fits_empty : Fits "" := ⟨by decide, by decide⟩

theorem fits_imsi2str {data : Memory} {pos : ℕ}
    (h : (imsi2str data pos).toList.length < rowLength) : Fits (imsi2str data pos) :=
  ⟨h, fun hmem ↦ absurd (isDigit_of_mem_imsi2str _ hmem) (by decide)⟩

/-- A visit keeps the ledger in order, and the text at hand within a row. -/
theorem visit_inOrder (hclean : Distinguishable packets) (hm : m.InHand packets)
    {v : ElementVisit} (hv : m.HasElement v) (h : s.InOrder packets (m.index + 1))
    (hfits : m.isRequest → Fits s.imsistr) :
    (visit m v s).InOrder packets (m.index + 1) ∧
      (m.isRequest → Fits (visit m v s).imsistr) := by
  have hmem : (m.packet, m.now) ∈ packets := List.mem_of_getElem? hm.packet
  -- the text after the first branch
  obtain ⟨s₁, hs₁, h₁, hfits₁⟩ : ∃ s₁,
      s₁ = (if v.ie = gtpv1IeImsi then
        { s with imsistr := imsi2str m.packet.data (m.gtp + v.offset) } else s) ∧
      s₁.InOrder packets (m.index + 1) ∧ (m.isRequest → Fits s₁.imsistr) := by
    refine ⟨_, rfl, ?_⟩
    by_cases hie : v.ie = gtpv1IeImsi
    · rw [if_pos hie]
      exact ⟨⟨h.accounted, h.rows, h.sorted, h.packet_lt, h.genuine⟩, fun hreq ↦
        fits_imsi2str (hclean.imsi_fits _ _ _ _ hmem hm.found hreq hv hie)⟩
    · rw [if_neg hie]
      exact ⟨h, hfits⟩
  -- the ledger after the second
  obtain ⟨s₂, hs₂, h₂, hfits₂⟩ : ∃ s₂,
      s₂ = (if v.ie = gtpv1IeTeiControlPlane ∧ m.isRequest then
        storeBinding m (teid2uint m.packet.data (m.gtp + v.offset)) s₁ else s₁) ∧
      s₂.InOrder packets (m.index + 1) ∧ (m.isRequest → Fits s₂.imsistr) := by
    refine ⟨_, rfl, ?_⟩
    by_cases hie : v.ie = gtpv1IeTeiControlPlane ∧ m.isRequest
    · rw [if_pos hie]
      refine ⟨storeBinding_inOrder h₁ (hfits₁ hie.2)
        ⟨_, _, _, v, hm.packet, hm.found, hie.2, hv, hie.1, rfl⟩, fun hreq ↦ ?_⟩
      rw [storeBinding_imsistr]
      exact hfits₁ hreq
    · rw [if_neg hie]
      exact ⟨h₁, hfits₁⟩
  have hvisit : visit m v s = if v.ie = gtpv1IeEndUserAddress ∧
      gtpv1EuaLength m.packet.data (m.gtp + v.offset) > gtpv1EuaNoAddressLength
      then printAddress m (m.gtp + v.offset) s₂ else s₂ := by
    rw [hs₂, hs₁]
    rfl
  rw [hvisit]
  split
  · refine ⟨printAddress_inOrder h₂ fun hr ↦ ?_, fun hreq ↦ ?_⟩
    · have hfor : ResponseFor packets m.index (headerTeid m.packet.data m.gtp) :=
        ⟨_, _, _, hm.packet, hm.found, hr, rfl⟩
      exact ⟨hfor, hclean.teid_ne_zero _ _ hfor⟩
    · rw [printAddress_imsistr]
      exact hfits₂ hreq
  · exact ⟨h₂, hfits₂⟩

end Visit

/-! ## What a run preserves -/

/-- The ledger of a run is in order, and so is the message in hand. -/
structure Run.InOrder (packets : List (Packet × ℤ)) (r : Run) : Prop where
  /-- The ledger is in order. -/
  state : r.state.InOrder packets r.index
  /-- The packets to come are those not begun. -/
  todo : r.todo = packets.drop r.index
  /-- The message in hand is the last one begun, and its walk got where it is. -/
  current : ∀ m offset, r.current = some (m, offset) →
    m.InHand packets ∧ m.index + 1 = r.index ∧
      Reaches m.packet.header.caplen.toNat m.packet.data m.gtp offset ∧
      (m.isRequest → Fits r.state.imsistr)

section Runs

variable {packets : List (Packet × ℤ)} {r : Run}

theorem Run.start_inOrder (packets : List (Packet × ℤ)) : (Run.start packets).InOrder packets := by
  refine ⟨⟨?_, ?_, List.Pairwise.nil, ?_, ?_⟩, rfl, ?_⟩
  · have hlive : Table.init.live = fun _ ↦ none := funext fun i ↦ if_neg fun h ↦ h.2 rfl
    exact hlive ▸ accounted_nil
  · exact fun i _ hne ↦ absurd rfl hne
  · exact fun e he ↦ absurd he List.not_mem_nil
  · exact fun e he ↦ absurd he List.not_mem_nil
  · exact fun m offset h ↦ nomatch h

private theorem State.InOrder.begin {begun : ℕ} {s : State} (h : s.InOrder packets begun)
    (imsistr : String) : State.InOrder packets (begun + 1) { s with imsistr := imsistr } :=
  ⟨h.accounted, h.rows, h.sorted, fun e he ↦ Nat.lt_succ_of_lt (h.packet_lt e he), h.genuine⟩

private theorem Run.step_current_inOrder (hclean : Distinguishable packets)
    (h : r.InOrder packets) {m : Message} {offset : ℕ} (hcurrent : r.current = some (m, offset)) :
    r.step.InOrder packets := by
  obtain ⟨hm, hindex, hreach, hfits⟩ := h.current m offset hcurrent
  have hstate : r.state.InOrder packets (m.index + 1) := hindex ▸ h.state
  unfold Run.step
  simp only [hcurrent]
  cases hiter : walkIteration m.packet.header.caplen.toNat m.packet.data m.gtp offset with
  | leave => exact ⟨h.state, h.todo, fun _ _ hnone ↦ nomatch hnone⟩
  | last v =>
    have hvisit := visit_inOrder hclean hm ⟨offset, hreach, .inl hiter⟩ hstate hfits
    exact ⟨hindex ▸ hvisit.1, h.todo, fun _ _ hnone ↦ nomatch hnone⟩
  | next v =>
    have hvisit := visit_inOrder hclean hm ⟨offset, hreach, .inr hiter⟩ hstate hfits
    refine ⟨hindex ▸ hvisit.1, h.todo, fun m' offset' hsome ↦ ?_⟩
    obtain ⟨rfl, rfl⟩ := Prod.mk.inj (Option.some.inj hsome)
    exact ⟨hm, hindex, .next hreach hiter, hvisit.2⟩

private theorem Run.step_next_inOrder (h : r.InOrder packets) (hcurrent : r.current = none) :
    r.step.InOrder packets := by
  unfold Run.step
  simp only [hcurrent]
  cases htodo : r.todo with
  | nil => exact h
  | cons head todo =>
    obtain ⟨p, now⟩ := head
    have hdrop : packets.drop r.index = (p, now) :: todo := h.todo.symm.trans htodo
    have hget : packets[r.index]? = some (p, now) := by
      rw [← List.head?_drop, hdrop, List.head?_cons]
    have hrest : todo = packets.drop (r.index + 1) := by
      rw [← List.tail_drop, hdrop, List.tail_cons]
    have hskip : Run.InOrder packets ⟨todo, r.index + 1, none, r.state⟩ :=
      ⟨h.state.begin r.state.imsistr, hrest, fun m offset hsome ↦ nomatch hsome⟩
    simp only
    cases hfound : gtpv1GetHeader p.header.caplen p.data with
    | none => exact hskip
    | some gtp =>
      simp only
      split
      · refine ⟨h.state.begin "", hrest, fun m offset hsome ↦ ?_⟩
        obtain ⟨rfl, rfl⟩ := Prod.mk.inj (Option.some.inj hsome)
        exact ⟨⟨hget, hfound⟩, rfl, .first, fun _ ↦ fits_empty⟩
      · exact hskip

theorem Run.step_inOrder (hclean : Distinguishable packets) (h : r.InOrder packets) :
    r.step.InOrder packets := by
  cases hcurrent : r.current with
  | none => exact Run.step_next_inOrder h hcurrent
  | some c => exact Run.step_current_inOrder hclean h hcurrent

theorem Run.iterate_inOrder (hclean : Distinguishable packets) (n : ℕ) :
    (Run.step^[n] (Run.start packets)).InOrder packets := by
  induction n with
  | zero => exact Run.start_inOrder packets
  | succ n ih =>
    rw [Function.iterate_succ_apply']
    exact Run.step_inOrder hclean ih

private theorem requestFor_ne_responseFor {j k : ℕ} {t t' : UInt32}
    (hj : RequestFor packets j t) (hk : ResponseFor packets k t') : j ≠ k := by
  rintro rfl
  obtain ⟨p, now, gtp, v, hget, hfound, hrequest, -⟩ := hj
  obtain ⟨p', now', gtp', hget', hfound', hresponse, -⟩ := hk
  obtain ⟨rfl, rfl⟩ := Prod.mk.inj (Option.some.inj (hget.symm.trans hget'))
  obtain rfl := Option.some.inj (hfound.symm.trans hfound')
  exact absurd (hrequest.symm.trans hresponse) (by decide)

theorem State.InOrder.sound {begun : ℕ} {s : State} (h : s.InOrder packets begun) :
    Sound packets s.history := by
  obtain ⟨origin, source, hacc⟩ := h.accounted
  have hredeemed : ∀ {k m : ℕ} {line : Line} {imsi : String},
      s.history[k]? = some (Event.printed m line) →
      line.imsi = some imsi →
      ∃ t, ResponseFor packets m t ∧ (Event.printed m line).redeemed = some (t, imsi) := by
    intro k m line imsi hk himsi
    obtain ⟨t, hresponse, hfor⟩ :=
      h.genuine _ (List.mem_of_getElem? hk) (by rw [himsi, Option.isSome_some])
    exact ⟨t, hfor, by simp [Event.redeemed, hresponse, himsi]⟩
  refine ⟨origin, fun k m line imsi hk himsi ↦ ?_, ?_⟩
  · obtain ⟨t, hfor, hred⟩ := hredeemed hk himsi
    obtain ⟨hlt, e, he, hissued⟩ := hacc.traced k _ _ hk hred
    cases e with
    | printed j l => cases hissued
    | stored j t' imsi' =>
      obtain ⟨rfl, rfl⟩ := Prod.mk.inj (Option.some.inj hissued)
      have hrequest : RequestFor packets j t' := h.genuine _ (List.mem_of_getElem? he)
      obtain ⟨hk', hkeq⟩ := List.getElem?_eq_some_iff.mp hk
      obtain ⟨ho', hoeq⟩ := List.getElem?_eq_some_iff.mp he
      have hle := List.pairwise_iff_getElem.mp h.sorted _ _ ho' hk' hlt
      rw [hkeq, hoeq] at hle
      exact ⟨t', j, hfor, hlt, he, lt_of_le_of_ne hle (requestFor_ne_responseFor hrequest hfor),
        hrequest⟩
  · refine hacc.injOn.mono ?_
    rintro k ⟨m, line, hk, hsome⟩
    obtain ⟨imsi, himsi⟩ := Option.isSome_iff_exists.mp hsome
    obtain ⟨t, -, hred⟩ := hredeemed hk himsi
    exact ⟨_, hk, by rw [hred, Option.isSome_some]⟩

/-- **The correlation is sound.** When no response carries identifier zero and no IMSI overruns its
row, each IMSI printed up to any point of the run was stored by an earlier request for the
identifier of the response it is printed for, and no stored binding is printed twice. -/
theorem imsi_correlation_sound (packets : List (Packet × ℤ)) (hclean : Distinguishable packets)
    (n : ℕ) : Sound packets (Run.step^[n] (Run.start packets)).state.history :=
  (Run.iterate_inOrder hclean n).state.sound

end Runs

/-! ## A response to identifier zero -/

/-- A request, its response, and a response to identifier zero. -/
def staleImsiPackets : List (Packet × ℤ) :=
  [(createPdpContextRequest (fun _ ↦ 1) 5, 0), (createPdpContextResponse 5, 0),
    (createPdpContextResponse 0, 0)]

/-- The third packet prints the IMSI that the second one has used up. -/
theorem imsi_correlation_stale_imsi :
    ¬ Sound staleImsiPackets (Run.step^[7] (Run.start staleImsiPackets)).state.history := by
  rintro ⟨origin, htraced, -⟩
  have hprints : ((Run.step^[7] (Run.start staleImsiPackets)).state.history[2]?.any fun e ↦
      match e with
      | .printed m line => m == 2 && line.imsi.isSome
      | .stored _ _ _ => false) = true := by
    decide +kernel
  have hstored : ∀ e ∈ (Run.step^[7] (Run.start staleImsiPackets)).state.history,
      e.issued.map Prod.fst ≠ some 0 := by
    decide +kernel
  obtain ⟨e, he, hmatch⟩ := (Option.any_eq_true _ _).mp hprints
  cases e with
  | stored j t imsi => cases hmatch
  | printed m line =>
    rw [Bool.and_eq_true, beq_iff_eq] at hmatch
    obtain ⟨rfl, hsome⟩ := hmatch
    obtain ⟨imsi, himsi⟩ := Option.isSome_iff_exists.mp hsome
    obtain ⟨t, j, ⟨p, now, gtp, hget, hfound, -, hteid⟩, -, horigin, -⟩ :=
      htraced 2 2 line imsi he himsi
    obtain ⟨rfl, rfl⟩ := Prod.mk.inj (Option.some.inj hget)
    have hgtp : gtp = 42 := Option.some.inj (hfound.symm.trans
      (gtpv1GetHeader_gtpcFrame _ _ _ (by decide)))
    have hzero : t = 0 := by
      rw [← hteid, hgtp]
      decide +kernel
    subst hzero
    exact hstored _ (List.mem_of_getElem? horigin) rfl

/-- A request with its response. -/
def boundImsiPackets : List (Packet × ℤ) :=
  [(createPdpContextRequest (fun _ ↦ 1) 5, 0), (createPdpContextResponse 5, 0)]

private theorem visits_createPdpContextRequest {v : ElementVisit}
    (h : Visits (createPdpContextRequest (fun _ ↦ 1) 5).header.caplen.toNat
      (createPdpContextRequest (fun _ ↦ 1) 5).data 42 v) :
    v = ⟨gtpv1IeImsi, 8, 8⟩ ∨ v = ⟨gtpv1IeTeiControlPlane, 17, 4⟩ := by
  have hfirst : walkIteration (createPdpContextRequest (fun _ ↦ 1) 5).header.caplen.toNat
      (createPdpContextRequest (fun _ ↦ 1) 5).data 42 8 = .next ⟨gtpv1IeImsi, 8, 8⟩ := by
    decide +kernel
  have hlast : walkIteration (createPdpContextRequest (fun _ ↦ 1) 5).header.caplen.toNat
      (createPdpContextRequest (fun _ ↦ 1) 5).data 42 17
        = .last ⟨gtpv1IeTeiControlPlane, 17, 4⟩ := by
    decide +kernel
  have hreach : ∀ offset, Reaches (createPdpContextRequest (fun _ ↦ 1) 5).header.caplen.toNat
      (createPdpContextRequest (fun _ ↦ 1) 5).data 42 offset → offset = 8 ∨ offset = 17 := by
    intro offset h
    induction h with
    | first => exact .inl rfl
    | next h hnext ih =>
      rcases ih with rfl | rfl
      · obtain rfl := Iteration.next.inj (hfirst.symm.trans hnext)
        exact .inr rfl
      · rw [hlast] at hnext
        cases hnext
  obtain ⟨offset, hoffset, hiter⟩ := h
  rcases hreach offset hoffset with rfl | rfl
  · rw [hfirst] at hiter
    rcases hiter with hiter | hiter
    · cases hiter
    · exact .inl (Iteration.next.inj hiter).symm
  · rw [hlast] at hiter
    rcases hiter with hiter | hiter
    · exact .inr (Iteration.last.inj hiter).symm
    · cases hiter

private theorem distinguishable_boundImsiPackets : Distinguishable boundImsiPackets where
  teid_ne_zero := by
    rintro j t ⟨p, now, gtp, hget, hfound, htype, hteid⟩
    match j, hget with
    | 0, hget =>
      obtain ⟨rfl, rfl⟩ := Prod.mk.inj (Option.some.inj hget)
      obtain rfl := Option.some.inj (hfound.symm.trans
        (gtpv1GetHeader_gtpcFrame _ _ _ (by decide)))
      exact absurd htype (by decide)
    | 1, hget =>
      obtain ⟨rfl, rfl⟩ := Prod.mk.inj (Option.some.inj hget)
      obtain rfl := Option.some.inj (hfound.symm.trans
        (gtpv1GetHeader_gtpcFrame _ _ _ (by decide)))
      rw [← hteid]
      decide +kernel
  imsi_fits := by
    intro p now gtp v hmem hfound htype hv hie
    rcases List.mem_cons.mp hmem with heq | hmem
    · obtain ⟨rfl, rfl⟩ := Prod.mk.inj heq
      obtain rfl := Option.some.inj (hfound.symm.trans
        (gtpv1GetHeader_gtpcFrame _ _ _ (by decide)))
      rcases visits_createPdpContextRequest hv with rfl | rfl
      · have hholds : (createPdpContextRequest (fun _ ↦ 1) 5).data.Holds (42 + 8 + 1)
            (Imsi.octets fun _ ↦ 1) := by
          decide +kernel
        rw [imsi2str_of_octets hholds, Imsi.length_text]
        decide
      · exact absurd hie (by decide)
    · obtain ⟨rfl, rfl⟩ := Prod.mk.inj (List.mem_singleton.mp hmem)
      obtain rfl := Option.some.inj (hfound.symm.trans
        (gtpv1GetHeader_gtpcFrame _ _ _ (by decide)))
      exact absurd htype (by decide)

/-- A request and its response make a sound history. -/
theorem imsi_correlation_sound_bound_imsi :
    Sound boundImsiPackets (Run.step^[5] (Run.start boundImsiPackets)).state.history :=
  imsi_correlation_sound boundImsiPackets distinguishable_boundImsiPackets 5

end Gtpimsieua

end DistributorMerger
