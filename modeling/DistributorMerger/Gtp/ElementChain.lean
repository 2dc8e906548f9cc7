import DistributorMerger.Bytes.Access
import DistributorMerger.Gtp.Walk

/-!
# The chain of elements that a walk follows

Each element has a length of its own, from the table or from the packet, and the lengths lead from
the first element to every later one. The chain is a matter of the packet alone. The walk follows it
until an element ends at or past the captured length, or at or past the declared end of the message;
the first element is looked at in any case.

Two things are read off the chain. The walk ends exactly when no element that it comes to is empty.
And the bytes that it reads are those that its iterations read at the offsets it comes to, so a
bound on all of them is a bound for each element of the chain.
-/

namespace DistributorMerger

/-! ## Lengths of elements -/

/-- The header length of the element whose type octet is at `pos`. -/
def elementHeaderLength (data : Memory) (pos : ℕ) : ℕ :=
  (gtpv1InformationElement (data pos).toNat).headerLength

/-- The body length of the element at `pos`. -/
def elementBodyLength (data : Memory) (pos : ℕ) : ℕ :=
  if (data pos).toNat ≥ gtpv1FirstTlvIe then data.be16 (pos + 1)
  else (gtpv1InformationElement (data pos).toNat).bodyLength

/-- The length of the element at `pos`. -/
def elementLength (data : Memory) (pos : ℕ) : ℕ :=
  elementHeaderLength data pos + elementBodyLength data pos

/-- The offsets from the GTP header that the lengths of the elements lead to. -/
inductive ElementAt (data : Memory) (gtp : ℕ) : ℕ → Prop
  /-- The first element stands behind the header. -/
  | first : ElementAt data gtp (firstElementOffset data gtp)
  /-- An element stands behind the one before it. -/
  | next {offset : ℕ} (h : ElementAt data gtp offset) :
      ElementAt data gtp (offset + elementLength data (gtp + offset))

/-- An element of the message that a walk comes to: the first one, or one that begins in front of
the declared end of the message and of the captured length, counted from the GTP header. -/
def Begins (caplen : ℕ) (data : Memory) (gtp offset : ℕ) : Prop :=
  offset = firstElementOffset data gtp ∨
    ElementAt data gtp offset ∧ offset < caplen ∧ offset < sizeofGtpv1hdr + messageLength data gtp

/-- What an iteration at `offset` acts on. -/
def visitAt (data : Memory) (gtp offset : ℕ) : ElementVisit where
  ie := (data (gtp + offset)).toNat
  offset := offset
  bodyLength := elementBodyLength data (gtp + offset)

section Chain

variable {caplen : ℕ} {data : Memory} {gtp offset : ℕ}

theorem behind_visitAt :
    (visitAt data gtp offset).behind = offset + elementLength data (gtp + offset) := rfl

theorem Begins.elementAt (h : Begins caplen data gtp offset) : ElementAt data gtp offset := by
  rcases h with rfl | ⟨h, -⟩
  · exact .first
  · exact h

/-- An iteration acts on the element at its offset when that ends in front of the captured length,
and goes on behind it when it also ends in front of the declared end of the message. -/
theorem walkIteration_eq :
    walkIteration caplen data gtp offset =
      if offset + elementLength data (gtp + offset) < caplen then
        if offset + elementLength data (gtp + offset) ≥ sizeofGtpv1hdr + messageLength data gtp
        then .last (visitAt data gtp offset) else .next (visitAt data gtp offset)
      else .leave := by
  unfold walkIteration
  by_cases hfits : offset + elementLength data (gtp + offset) < caplen
  · rw [if_pos hfits]
    rw [elementLength, elementHeaderLength, elementBodyLength] at hfits
    rw [if_pos (by omega)]
    dsimp only
    rw [if_neg (by omega), if_neg (by omega)]
    rfl
  · rw [if_neg hfits]
    rw [elementLength, elementHeaderLength, elementBodyLength] at hfits
    split
    · dsimp only
      split
      · rfl
      · rw [if_pos (by omega)]
    · rfl

theorem walkIteration_eq_next_iff {v : ElementVisit} :
    walkIteration caplen data gtp offset = .next v ↔
      offset + elementLength data (gtp + offset) < caplen ∧
      offset + elementLength data (gtp + offset) < sizeofGtpv1hdr + messageLength data gtp ∧
      v = visitAt data gtp offset := by
  rw [walkIteration_eq]
  split
  · split
    · simp only [reduceCtorEq, false_iff, not_and]
      omega
    · simp only [Iteration.next.injEq, eq_comm (a := visitAt data gtp offset)]
      refine ⟨fun h ↦ ⟨‹_›, by omega, h⟩, fun h ↦ h.2.2⟩
  · simp only [reduceCtorEq, false_iff, not_and]
    omega

/-- The walk comes to the elements of the chain that begin early enough. -/
theorem reaches_iff_begins : Reaches caplen data gtp offset ↔ Begins caplen data gtp offset := by
  constructor
  · intro h
    induction h with
    | first => exact .inl rfl
    | @next offset v h hnext ih =>
      obtain ⟨hcaplen, hend, rfl⟩ := walkIteration_eq_next_iff.mp hnext
      exact .inr ⟨ih.elementAt.next, hcaplen, hend⟩
  · rintro (rfl | ⟨h, hcaplen, hend⟩)
    · exact .first
    · -- The elements before one that begins early enough begin earlier still.
      induction h with
      | first => exact .first
      | @next offset h ih =>
        have hnext := walkIteration_eq_next_iff.mpr ⟨hcaplen, hend, rfl⟩
        exact .next (ih (by omega) (by omega)) hnext

end Chain

/-! ## When the walk ends -/

/-- The octet at `pos` is of a type that is not in the table and, if it is that of a TLV element,
the length field behind it is zero. -/
def IsEmptyElement (data : Memory) (pos : ℕ) : Prop :=
  (∀ e ∈ listedElements, e.id ≠ (data pos).toNat) ∧
    ((data pos).toNat ≥ gtpv1FirstTlvIe → data.be16 (pos + 1) = 0)

/-- No element of the message that a walk comes to is empty. -/
def NoEmptyElement (caplen : ℕ) (data : Memory) (gtp : ℕ) : Prop :=
  ∀ offset, ElementAt data gtp offset → offset < caplen →
    offset < sizeofGtpv1hdr + messageLength data gtp → ¬ IsEmptyElement data (gtp + offset)

theorem isEmptyElement_iff {data : Memory} {pos : ℕ} :
    IsEmptyElement data pos ↔ elementLength data pos = 0 := by
  unfold IsEmptyElement elementLength elementHeaderLength elementBodyLength
  by_cases hlisted : ∃ e ∈ listedElements, e.id = (data pos).toNat
  · obtain ⟨e, he, hid⟩ := hlisted
    have hheader : 1 ≤ e.headerLength := by
      rw [(listed_bounds he).2]
      split <;> omega
    rw [← hid, gtpv1InformationElement_of_listed he]
    constructor
    · rintro ⟨hne, -⟩
      exact absurd rfl (hne e he)
    · intro h
      omega
  · have hnone : listedElements.find? (fun e ↦ e.id = (data pos).toNat) = none := by
      rw [List.find?_eq_none]
      intro e he hid
      exact hlisted ⟨e, he, of_decide_eq_true hid⟩
    have hunlisted : gtpv1InformationElement (data pos).toNat = ⟨0, 0, 0⟩ := by
      rw [gtpv1InformationElement, hnone, Option.getD_none]
    rw [hunlisted]
    simp only [Nat.zero_add, ite_eq_right_iff]
    exact ⟨fun h ↦ h.2, fun h ↦ ⟨fun e he hid ↦ hlisted ⟨e, he, hid⟩, h⟩⟩

section Ends

variable {σ : Type*} (visit : ElementVisit → σ → σ) {caplen : ℕ} {data : Memory} {gtp : ℕ}

theorem NoEmptyElement.lt_behind (h : NoEmptyElement caplen data gtp) {offset : ℕ}
    {v : ElementVisit} (hreaches : Reaches caplen data gtp offset)
    (hnext : walkIteration caplen data gtp offset = .next v) : offset < v.behind := by
  obtain ⟨hcaplen, hend, rfl⟩ := walkIteration_eq_next_iff.mp hnext
  have hnonempty := h offset (reaches_iff_begins.mp hreaches).elementAt (by omega) (by omega)
  rw [isEmptyElement_iff] at hnonempty
  rw [behind_visitAt]
  omega

/-- Where no element is empty, the captured bytes left are fuel enough. -/
theorem NoEmptyElement.isSome_walk (h : NoEmptyElement caplen data gtp) :
    ∀ (fuel offset : ℕ) (s : σ), Reaches caplen data gtp offset → caplen ≤ offset + fuel →
      (walk visit caplen data gtp (fuel + 1) offset s).isSome := by
  -- The fuel bounds the captured bytes behind the offset; an iteration that goes on takes one.
  intro fuel
  induction fuel with
  | zero =>
    intro offset s _ hfuel
    rw [walk]
    cases hiter : walkIteration caplen data gtp offset with
    | leave => rfl
    | last v => rfl
    | next v =>
      have hcaplen := (walkIteration_eq_next_iff.mp hiter).1
      omega
  | succ fuel ih =>
    intro offset s hreaches hfuel
    rw [walk]
    cases hiter : walkIteration caplen data gtp offset with
    | leave => rfl
    | last v => rfl
    | next v =>
      have hlt := h.lt_behind hreaches hiter
      exact ih v.behind (visit v s) (.next hreaches hiter) (by omega)

theorem walk_eq_none_of_reaches {offset : ℕ} (hreaches : Reaches caplen data gtp offset)
    (h : ∀ fuel s, walk visit caplen data gtp fuel offset s = none) :
    ∀ fuel s, walk visit caplen data gtp fuel (firstElementOffset data gtp) s = none := by
  induction hreaches with
  | first => exact h
  | @next offset v _ hnext ih =>
    refine ih fun fuel s ↦ ?_
    cases fuel with
    | zero => rfl
    | succ fuel =>
      rw [walk, hnext]
      exact h fuel _

/-- An empty element holds the walk where it is. -/
theorem walk_eq_none_of_empty {offset : ℕ} (hcaplen : offset < caplen)
    (hend : offset < sizeofGtpv1hdr + messageLength data gtp)
    (hempty : elementLength data (gtp + offset) = 0) :
    ∀ fuel s, walk visit caplen data gtp fuel offset s = none := by
  have hnext : walkIteration caplen data gtp offset = .next (visitAt data gtp offset) :=
    walkIteration_eq_next_iff.mpr ⟨by omega, by omega, rfl⟩
  have hbehind : (visitAt data gtp offset).behind = offset := by
    rw [behind_visitAt, hempty, Nat.add_zero]
  intro fuel
  induction fuel with
  | zero => exact fun _ ↦ rfl
  | succ fuel ih =>
    intro s
    rw [walk, hnext]
    dsimp only
    rw [hbehind]
    exact ih _

/-- **The walk ends exactly when it comes to no empty element.** -/
theorem exists_isSome_walk_iff (s : σ) :
    (∃ fuel, (walk visit caplen data gtp fuel (firstElementOffset data gtp) s).isSome) ↔
      NoEmptyElement caplen data gtp := by
  constructor
  · rintro ⟨fuel, hfuel⟩ offset hat hcaplen hend hempty
    have hreaches := reaches_iff_begins.mpr (.inr ⟨hat, hcaplen, hend⟩)
    have hnone := walk_eq_none_of_reaches visit hreaches
      (walk_eq_none_of_empty visit hcaplen hend (isEmptyElement_iff.mp hempty)) fuel s
    rw [hnone] at hfuel
    exact absurd hfuel Bool.false_ne_true
  · intro h
    exact ⟨caplen + 1, h.isSome_walk visit caplen _ s .first (by omega)⟩

end Ends

/-! ## What the walk reads -/

/-- The body length of the element of type `ie` at `pos`: that of a TLV element is read. -/
def readBodyLength (pos ie : ℕ) : Access ℕ :=
  if ie ≥ gtpv1FirstTlvIe then Access.be16 (pos + 1)
  else pure (gtpv1InformationElement ie).bodyLength

section Reads

variable {σ : Type} (act : ElementVisit → σ → Access σ) (caplen gtp : ℕ)

/-- The `while` loop with the offsets it reads: the type octet, the two length octets of a TLV
element, what its action on the element reads, and the length field of the GTP header. -/
def readWalk : ℕ → ℕ → σ → Access (Option σ)
  | 0, _, _ => pure none
  | fuel + 1, offset, s =>
    if ¬ offset < caplen then pure (some s) else do
      let octet ← Access.byte (gtp + offset)
      let ie := octet.toNat
      let headerLength := (gtpv1InformationElement ie).headerLength
      if offset + headerLength ≥ caplen then pure (some s) else do
        let bodyLength ← readBodyLength (gtp + offset) ie
        if offset + headerLength + bodyLength ≥ caplen then pure (some s) else do
          let v : ElementVisit := ⟨ie, offset, bodyLength⟩
          let s ← act v s
          let length ← Access.be16 (gtp + 2)
          if v.behind ≥ sizeofGtpv1hdr + length then pure (some s)
          else readWalk fuel v.behind s

variable {act caplen gtp} {data : Memory}

theorem value_readBodyLength {pos : ℕ} :
    (readBodyLength pos (data pos).toNat).value data = elementBodyLength data pos := by
  rw [readBodyLength, elementBodyLength]
  split <;> rfl

theorem value_readWalk (fuel : ℕ) : ∀ (offset : ℕ) (s : σ),
    (readWalk act caplen gtp fuel offset s).value data
      = walk (fun v s ↦ (act v s).value data) caplen data gtp fuel offset s := by
  induction fuel with
  | zero => exact fun _ _ ↦ rfl
  | succ fuel ih =>
    intro offset s
    rw [readWalk, walk, walkIteration_eq]
    have hlength : elementLength data (gtp + offset)
        = elementHeaderLength data (gtp + offset) + elementBodyLength data (gtp + offset) := rfl
    have hheader : (gtpv1InformationElement (data (gtp + offset)).toNat).headerLength
        = elementHeaderLength data (gtp + offset) := rfl
    -- The tests of the loop in turn: where one of them ends the loop, the element does not fit.
    by_cases hcaplen : offset < caplen
    swap
    · rw [if_pos hcaplen, if_neg (by omega)]
      rfl
    rw [if_neg (not_not.mpr hcaplen), Access.value_bind, Access.value_byte]
    dsimp only
    rw [hheader]
    by_cases hfit : offset + elementHeaderLength data (gtp + offset) ≥ caplen
    · rw [if_pos hfit, if_neg (by omega)]
      rfl
    rw [if_neg hfit, Access.value_bind, value_readBodyLength]
    by_cases hbody : offset + elementHeaderLength data (gtp + offset)
        + elementBodyLength data (gtp + offset) ≥ caplen
    · rw [if_pos hbody, if_neg (by omega)]
      rfl
    rw [if_neg hbody, if_pos (by omega), Access.value_bind, Access.value_bind, Access.value_be16]
    have hbehind : (⟨(data (gtp + offset)).toNat, offset,
        elementBodyLength data (gtp + offset)⟩ : ElementVisit).behind
          = offset + elementLength data (gtp + offset) := rfl
    rw [hbehind]
    change (if _ ≥ sizeofGtpv1hdr + messageLength data gtp then _ else _ : Access _).value data = _
    split
    · rfl
    · exact ih _ _

theorem below_readBodyLength {n pos : ℕ} :
    Access.Below n data (readBodyLength pos (data pos).toNat) ↔
      ((data pos).toNat ≥ gtpv1FirstTlvIe → pos + 2 < n) := by
  rw [readBodyLength, Access.below_onlyIf, Access.below_be16]

theorem below_readWalk_succ {n fuel offset : ℕ} {s : σ} (hcaplen : offset < caplen) :
    Access.Below n data (readWalk act caplen gtp (fuel + 1) offset s) ↔
      gtp + offset < n ∧
      (offset + elementHeaderLength data (gtp + offset) < caplen →
        ((data (gtp + offset)).toNat ≥ gtpv1FirstTlvIe → gtp + offset + 2 < n) ∧
        (offset + elementLength data (gtp + offset) < caplen →
          Access.Below n data (act (visitAt data gtp offset) s) ∧ gtp + 3 < n ∧
          (offset + elementLength data (gtp + offset) < sizeofGtpv1hdr + messageLength data gtp →
            Access.Below n data (readWalk act caplen gtp fuel
              (offset + elementLength data (gtp + offset))
              ((act (visitAt data gtp offset) s).value data))))) := by
  have hheader : (gtpv1InformationElement (data (gtp + offset)).toNat).headerLength
      = elementHeaderLength data (gtp + offset) := rfl
  have hvisit : (⟨(data (gtp + offset)).toNat, offset,
      elementBodyLength data (gtp + offset)⟩ : ElementVisit) = visitAt data gtp offset := rfl
  have hlength : offset + elementHeaderLength data (gtp + offset)
      + elementBodyLength data (gtp + offset) = offset + elementLength data (gtp + offset) := by
    rw [elementLength, Nat.add_assoc]
  rw [readWalk, if_neg (not_not.mpr hcaplen), Access.below_bind, Access.below_byte,
    Access.value_byte]
  dsimp only
  rw [hheader, Access.below_guard, not_le, Access.below_bind, below_readBodyLength,
    value_readBodyLength, hlength, Access.below_guard, not_le, hvisit, Access.below_bind,
    Access.below_bind, Access.below_be16, Access.value_be16, Access.below_guard, not_le,
    behind_visitAt]
  rfl

variable (act) in
/-- The iteration at `offset` reads below `n`, whatever state its action is in. -/
def IterationBelow (n caplen : ℕ) (data : Memory) (gtp offset : ℕ) : Prop :=
  offset < caplen → gtp + offset < n ∧
    (offset + elementHeaderLength data (gtp + offset) < caplen →
      ((data (gtp + offset)).toNat ≥ gtpv1FirstTlvIe → gtp + offset + 2 < n) ∧
      (offset + elementLength data (gtp + offset) < caplen →
        (∀ s, Access.Below n data (act (visitAt data gtp offset) s)) ∧ gtp + 3 < n))

theorem below_readWalk {n : ℕ}
    (h : ∀ offset, Begins caplen data gtp offset → IterationBelow act n caplen data gtp offset) :
    ∀ (fuel offset : ℕ) (s : σ), Begins caplen data gtp offset →
      Access.Below n data (readWalk act caplen gtp fuel offset s) := by
  intro fuel
  induction fuel with
  | zero => exact fun _ _ _ ↦ Access.below_pure none
  | succ fuel ih =>
    intro offset s hbegins
    by_cases hcaplen : offset < caplen
    · rw [below_readWalk_succ hcaplen]
      obtain ⟨htype, hrest⟩ := h offset hbegins hcaplen
      refine ⟨htype, fun hfit ↦ ⟨(hrest hfit).1, fun hbody ↦ ?_⟩⟩
      obtain ⟨hact, hlength⟩ := (hrest hfit).2 hbody
      exact ⟨hact s, hlength,
        fun hend ↦ ih _ _ (.inr ⟨hbegins.elementAt.next, hbody, hend⟩)⟩
    · rw [readWalk, if_pos hcaplen]
      exact Access.below_pure _

/-- If the reads of the action do not depend on its state, the walk reads below `n` exactly when its
iterations do. -/
theorem below_readWalk_iff {n : ℕ}
    (hact : ∀ v s s', Access.Below n data (act v s) → Access.Below n data (act v s')) (s : σ) :
    (∀ fuel, Access.Below n data
        (readWalk act caplen gtp fuel (firstElementOffset data gtp) s)) ↔
      ∀ offset, Begins caplen data gtp offset →
        IterationBelow act n caplen data gtp offset := by
  refine ⟨fun h offset hbegins ↦ ?_, fun h fuel ↦ below_readWalk h fuel _ s (.inl rfl)⟩
  -- The walk comes to the offset with fuel left, in a state that its actions have led to.
  have hreached : ∃ s', ∀ fuel, Access.Below n data
      (readWalk act caplen gtp fuel offset s') := by
    induction reaches_iff_begins.mpr hbegins with
    | first => exact ⟨s, h⟩
    | @next offset v hreaches hnext ih =>
      obtain ⟨s', hs'⟩ := ih (reaches_iff_begins.mp hreaches)
      obtain ⟨hbody, hend, rfl⟩ := walkIteration_eq_next_iff.mp hnext
      refine ⟨(act (visitAt data gtp offset) s').value data, fun fuel ↦ ?_⟩
      have hbelow := (below_readWalk_succ (by omega)).mp (hs' (fuel + 1))
      have hfit : offset + elementHeaderLength data (gtp + offset) < caplen := by
        rw [elementLength] at hbody
        omega
      exact (((hbelow.2 hfit).2 hbody).2.2) hend
  obtain ⟨s', hs'⟩ := hreached
  intro hcaplen
  obtain ⟨htype, hrest⟩ := (below_readWalk_succ hcaplen).mp (hs' 1)
  refine ⟨htype, fun hfit ↦ ⟨(hrest hfit).1, fun hbody ↦ ?_⟩⟩
  obtain ⟨hbelow, hlength, -⟩ := (hrest hfit).2 hbody
  exact ⟨fun s ↦ hact _ _ _ hbelow, hlength⟩

end Reads

end DistributorMerger
