import Mathlib
import DistributorMerger.Filter.ImsiCompleteness

/-!
# The IMSI table as a list of unanswered requests

What the table of `gtpimsieua` is for can be said without slots: a request is noted, and the next
response to its identifier that carries an address is answered from the note and crosses it out.
This file carries the whole output of the program over to that list.

The table forgets in one case only. A slot that has been taken for longer than the timeout may be
overwritten by a later request, so the list marks its entries as expired at that point, and a
response to an expired entry may be printed with the IMSI or without it.

What the requests have to fulfil is said about the list alone: an identifier is not zero, the mark
of a free slot, it is not requested again before it has been answered, and the requests that have
been unanswered for no longer than the timeout are fewer than the slots.
-/

namespace DistributorMerger

namespace Gtpimsieua

/-! ## Unanswered requests -/

/-- A request that has not been answered. -/
structure Request where
  /-- The identifier it announces. -/
  teid : UInt32
  /-- The IMSI it carries. -/
  imsi : Imsi
  /-- The clock reading taken for it. -/
  asked : ℤ
  /-- A later request came after the timeout. -/
  expired : Bool

/-- The request once another one has come at time `now`. -/
def Request.expire (now : ℤ) (r : Request) : Request :=
  { r with expired := r.expired || decide (r.asked + imsiTimeout < now) }

/-- The unanswered requests after one more packet. -/
def Captured.advance (u : List Request) (c : Captured) : List Request :=
  match c.content with
  | .request teid imsi => ⟨teid, imsi, c.now, false⟩ :: u.map (Request.expire c.now)
  | .response teid true => u.filter fun r ↦ r.teid ≠ teid
  | .response _ false => u
  | .other => u

/-- A line that is due: the number of the response, its identifier and the request it answers. -/
structure Answer where
  /-- The number of the response in the capture. -/
  index : ℕ
  /-- The identifier that it is sent to. -/
  teid : UInt32
  /-- The unanswered request for the identifier, if there is one. -/
  request : Option Request

/-- The line that is due for a packet. -/
def Captured.answer (index : ℕ) (u : List Request) (c : Captured) : Option Answer :=
  match c.content with
  | .response teid true => some ⟨index, teid, u.find? fun r ↦ r.teid = teid⟩
  | _ => none

/-- The lines that are due for a capture, from packet number `index` on. -/
def answersFrom : ℕ → List Request → List Captured → List Answer
  | _, _, [] => []
  | index, u, c :: capture =>
    (c.answer index u).toList ++ answersFrom (index + 1) (c.advance u) capture

/-- The packet comes when the table can cope with it. -/
def Captured.Timely (u : List Request) (c : Captured) : Prop :=
  match c.content with
  | .request teid _ =>
    teid ≠ 0 ∧ (∀ r ∈ u, r.teid ≠ teid) ∧
      (u.filter fun r ↦ c.now ≤ r.asked + imsiTimeout).length < imsiMapSize
  | .response teid true => teid ≠ 0
  | .response _ false => True
  | .other => True

/-- Every packet of the capture comes when the table can cope with it. -/
def PacedFrom (u : List Request) (capture : List Captured) : Prop :=
  ∀ before c after, capture = before ++ c :: after →
    c.Timely (before.foldl Captured.advance u)

theorem pacedFrom_cons {u : List Request} {c : Captured} {capture : List Captured} :
    PacedFrom u (c :: capture) ↔ c.Timely u ∧ PacedFrom (c.advance u) capture := by
  constructor
  · intro h
    refine ⟨h [] c capture rfl, fun before c' after heq ↦ ?_⟩
    exact h (c :: before) c' after (by rw [heq, List.cons_append])
  · rintro ⟨htimely, hrest⟩ before c' after heq
    cases before with
    | nil =>
      obtain ⟨rfl, rfl⟩ := List.cons.inj heq
      exact htimely
    | cons b before =>
      obtain ⟨rfl, rfl⟩ := List.cons.inj heq
      exact hrest before c' after rfl

theorem pacedFrom_nil (u : List Request) : PacedFrom u [] := by
  intro before c after heq
  simp at heq

/-! ## What the table holds of them -/

/-- Slot `i` holds the request. -/
structure Table.Holds (t : Table) (i : ℕ) (r : Request) : Prop where
  /-- The identifier. -/
  imsiMap_eq : t.imsiMap i = r.teid.toInt32
  /-- The clock reading. -/
  imsiTime_eq : t.imsiTime i = r.asked
  /-- The IMSI. -/
  shows : t.Shows i r.imsi.text

/-- The slots in use hold unanswered requests, each another one, and all of those that have not
expired. -/
structure Table.Represents (t : Table) (u : List Request) : Prop where
  /-- No request is for the free mark. -/
  teid_ne_zero : ∀ r ∈ u, r.teid ≠ 0
  /-- No two requests are for one identifier. -/
  nodup : (u.map Request.teid).Nodup
  /-- A slot in use holds an unanswered request. -/
  exists_holds : ∀ i < imsiMapSize, t.imsiMap i ≠ 0 → ∃ r ∈ u, t.Holds i r
  /-- No two slots bind one identifier. -/
  injective : ∀ i < imsiMapSize, ∀ j < imsiMapSize, t.imsiMap i ≠ 0 →
    t.imsiMap i = t.imsiMap j → i = j
  /-- A request that has not expired is in a slot. -/
  exists_slot : ∀ r ∈ u, r.expired = false → ∃ i < imsiMapSize, t.imsiMap i = r.teid.toInt32

theorem Table.represents_init : Table.init.Represents [] where
  teid_ne_zero := by simp
  nodup := List.nodup_nil
  exists_holds := fun i _ hused ↦ absurd rfl hused
  injective := fun i _ j _ hused ↦ absurd rfl hused
  exists_slot := by simp

section Represents

variable {t : Table} {u : List Request} {teid : UInt32}

theorem Table.Represents.eq_of_teid (h : t.Represents u) {r r' : Request} (hr : r ∈ u)
    (hr' : r' ∈ u) (heq : r.teid = r'.teid) : r = r' :=
  List.inj_on_of_nodup_map h.nodup hr hr' heq

theorem Table.Represents.find?_eq_some (h : t.Represents u) {r : Request} (hr : r ∈ u) :
    (u.find? fun r' ↦ r'.teid = r.teid) = some r := by
  cases hfind : u.find? fun r' ↦ r'.teid = r.teid with
  | none => simpa using List.find?_eq_none.mp hfind r hr
  | some r' =>
    have hr' : r'.teid = r.teid := by simpa using List.find?_some hfind
    rw [h.eq_of_teid (List.mem_of_find?_eq_some hfind) hr hr']

theorem Table.Represents.firstIndex_bound (h : t.Represents u) (hteid : teid ≠ 0) {i : ℕ}
    (hscan : firstIndex (t.bound teid) imsiMapSize 0 = some i) :
    i < imsiMapSize ∧ ∃ r ∈ u, r.teid = teid ∧ t.Holds i r := by
  obtain ⟨hbound, -, hi⟩ := firstIndex_eq_some hscan
  have hi' : i < imsiMapSize := by omega
  have hmap := Table.bound_iff.mp hbound
  obtain ⟨r, hr, hholds⟩ := h.exists_holds i hi' (hmap ▸ toInt32_ne_zero hteid)
  exact ⟨hi', r, hr, toInt32_injective (hholds.imsiMap_eq.symm.trans hmap), hholds⟩

/-- A scan that finds nothing has an expired request to blame, if any. -/
theorem Table.Represents.expired_of_firstIndex (h : t.Represents u)
    (hscan : firstIndex (t.bound teid) imsiMapSize 0 = none) {r : Request} (hr : r ∈ u)
    (hr_teid : r.teid = teid) : r.expired = true := by
  by_contra hfresh
  obtain ⟨i, hi, hmap⟩ := h.exists_slot r hr (Bool.eq_false_iff.mpr hfresh)
  obtain ⟨j, hj⟩ := exists_firstIndex (n := imsiMapSize) (i := 0)
    (Table.bound_iff.mpr (hr_teid ▸ hmap)) (Nat.zero_le _) (by omega)
  rw [hscan] at hj
  cases hj

/-- **There is a slot for every request.** Were there none, then each slot would hold a request that
has been unanswered for no longer than the timeout, and each another one. -/
theorem Table.Represents.exists_reusable (h : t.Represents u) {now : ℤ}
    (hroom : (u.filter fun r ↦ now ≤ r.asked + imsiTimeout).length < imsiMapSize) :
    ∃ i < imsiMapSize, t.reusable now i = true := by
  by_contra hnone
  push Not at hnone
  have hused : ∀ i < imsiMapSize, t.imsiMap i ≠ 0 ∧ now ≤ t.imsiTime i + imsiTimeout := by
    intro i hi
    have hnot := hnone i hi
    rw [Ne, Table.reusable_iff, not_or] at hnot
    exact ⟨hnot.1, not_lt.mp hnot.2⟩
  have hmaps : Set.MapsTo (fun i ↦ (t.imsiMap i).toUInt32) (Finset.range imsiMapSize)
      ((u.filter fun r ↦ now ≤ r.asked + imsiTimeout).map Request.teid).toFinset := by
    intro i hi
    have hi' : i < imsiMapSize := Finset.mem_range.mp hi
    obtain ⟨r, hr, hholds⟩ := h.exists_holds i hi' (hused i hi').1
    have hrecent := hholds.imsiTime_eq ▸ (hused i hi').2
    rw [Finset.mem_coe, List.mem_toFinset, List.mem_map]
    refine ⟨r, List.mem_filter.mpr ⟨hr, decide_eq_true hrecent⟩, ?_⟩
    dsimp only
    rw [hholds.imsiMap_eq, UInt32.toUInt32_toInt32]
  have hinj : Set.InjOn (fun i ↦ (t.imsiMap i).toUInt32) (Finset.range imsiMapSize) := by
    intro i hi j hj heq
    have hi' : i < imsiMapSize := Finset.mem_range.mp hi
    refine h.injective i hi' j (Finset.mem_range.mp hj) (hused i hi').1 ?_
    have hconv := congrArg UInt32.toInt32 heq
    dsimp only at hconv
    rwa [Int32.toInt32_toUInt32, Int32.toInt32_toUInt32] at hconv
  have hcard := Finset.card_le_card_of_injOn _ hmaps hinj
  have hlength := List.toFinset_card_le
    ((u.filter fun r ↦ now ≤ r.asked + imsiTimeout).map Request.teid)
  rw [Finset.card_range] at hcard
  rw [List.length_map] at hlength
  omega

/-! ### Requests -/

theorem Table.Holds.bind_of_ne {i j : ℕ} {r : Request} (h : t.Holds j r) (hji : j ≠ i)
    (now : ℤ) (imsi : Imsi) : (t.bind i teid now imsi.text).Holds j (r.expire now) where
  imsiMap_eq := (t.imsiMap_bind_of_ne hji).trans h.imsiMap_eq
  imsiTime_eq := (t.imsiTime_bind_of_ne hji).trans h.imsiTime_eq
  shows := h.shows.bind_of_ne teid now (fits_text imsi) hji

/-- A request is put down, and takes no slot from one that has not expired. -/
theorem Table.Represents.bind (h : t.Represents u) (hteid : teid ≠ 0)
    (hnew : ∀ r ∈ u, r.teid ≠ teid) {now : ℤ} {i : ℕ} (hi : i < imsiMapSize)
    (hreusable : t.reusable now i = true) (imsi : Imsi) :
    (t.bind i teid now imsi.text).Represents
      (⟨teid, imsi, now, false⟩ :: u.map (Request.expire now)) := by
  have hother : ∀ j < imsiMapSize, t.imsiMap j ≠ teid.toInt32 := by
    intro j hj hmap
    obtain ⟨r, hr, hholds⟩ := h.exists_holds j hj (hmap ▸ toInt32_ne_zero hteid)
    exact hnew r hr (toInt32_injective (hholds.imsiMap_eq.symm.trans hmap))
  constructor
  · intro r hr
    rcases List.mem_cons.mp hr with rfl | hr
    · exact hteid
    · obtain ⟨r, hu, rfl⟩ := List.mem_map.mp hr
      exact h.teid_ne_zero r hu
  · have hmap : (u.map (Request.expire now)).map Request.teid = u.map Request.teid := by
      rw [List.map_map]
      rfl
    rw [List.map_cons, hmap, List.nodup_cons]
    refine ⟨fun hmem ↦ ?_, h.nodup⟩
    obtain ⟨r, hr, heq⟩ := List.mem_map.mp hmem
    exact hnew r hr heq
  · intro j hj hused
    by_cases hji : j = i
    · subst hji
      exact ⟨_, List.mem_cons_self, t.imsiMap_bind_self, t.imsiTime_bind_self,
        Table.shows_bind (fits_text imsi)⟩
    · rw [t.imsiMap_bind_of_ne hji] at hused
      obtain ⟨r, hr, hholds⟩ := h.exists_holds j hj hused
      exact ⟨r.expire now, List.mem_cons_of_mem _ (List.mem_map_of_mem hr),
        hholds.bind_of_ne hji now imsi⟩
  · intro j hj k hk hused heq
    -- the identifier of the new request is in its own slot only
    by_cases hji : j = i
    · by_cases hki : k = i
      · rw [hji, hki]
      · rw [hji, t.imsiMap_bind_self, t.imsiMap_bind_of_ne hki] at heq
        exact absurd heq.symm (hother k hk)
    · rw [t.imsiMap_bind_of_ne hji] at hused heq
      by_cases hki : k = i
      · rw [hki, t.imsiMap_bind_self] at heq
        exact absurd heq (hother j hj)
      · rw [t.imsiMap_bind_of_ne hki] at heq
        exact h.injective j hj k hk hused heq
  · intro r hr hfresh
    rcases List.mem_cons.mp hr with rfl | hr
    · exact ⟨i, hi, t.imsiMap_bind_self⟩
    · obtain ⟨r, hu, rfl⟩ := List.mem_map.mp hr
      rw [Request.expire, Bool.or_eq_false_iff, decide_eq_false_iff_not, not_lt] at hfresh
      obtain ⟨j, hj, hmap⟩ := h.exists_slot r hu hfresh.1
      have hused : t.imsiMap j ≠ 0 := hmap ▸ toInt32_ne_zero (h.teid_ne_zero r hu)
      -- the slot that is taken is free or expired, the one of the request neither
      have hji : j ≠ i := by
        rintro rfl
        rcases Table.reusable_iff.mp hreusable with hzero | hlate
        · exact hused hzero
        · obtain ⟨r', hr', hholds⟩ := h.exists_holds j hj hused
          have hteid' := toInt32_injective (hholds.imsiMap_eq.symm.trans hmap)
          rw [hholds.imsiTime_eq, h.eq_of_teid hr' hu hteid'] at hlate
          exact absurd hlate (not_lt.mpr hfresh.2)
      exact ⟨j, hj, (t.imsiMap_bind_of_ne hji).trans hmap⟩

/-! ### Responses -/

theorem Table.Represents.cross_out (h : t.Represents u) {t' : Table}
    (htime : t'.imsiTime = t.imsiTime) (harray : t'.imsiArray = t.imsiArray)
    (hfreed : ∀ j < imsiMapSize, t.imsiMap j = teid.toInt32 → t'.imsiMap j = 0)
    (hkept : ∀ j < imsiMapSize, t.imsiMap j ≠ teid.toInt32 → t'.imsiMap j = t.imsiMap j) :
    t'.Represents (u.filter fun r ↦ r.teid ≠ teid) := by
  have hmem : ∀ {r : Request}, r ∈ (u.filter fun r ↦ r.teid ≠ teid) ↔ r ∈ u ∧ r.teid ≠ teid := by
    intro r
    rw [List.mem_filter, decide_eq_true_iff]
  have hused : ∀ j < imsiMapSize, t'.imsiMap j ≠ 0 → t.imsiMap j ≠ teid.toInt32 :=
    fun j hj hne heq ↦ hne (hfreed j hj heq)
  constructor
  · exact fun r hr ↦ h.teid_ne_zero r (hmem.mp hr).1
  · exact h.nodup.sublist (List.filter_sublist.map _)
  · intro j hj hne
    have hother := hused j hj hne
    rw [hkept j hj hother] at hne
    obtain ⟨r, hr, hholds⟩ := h.exists_holds j hj hne
    refine ⟨r, hmem.mpr ⟨hr, fun heq ↦ hother (heq ▸ hholds.imsiMap_eq)⟩,
      (hkept j hj hother).trans hholds.imsiMap_eq, htime ▸ hholds.imsiTime_eq,
      hholds.shows.fits, harray ▸ hholds.shows.chars⟩
  · intro j hj k hk hne heq
    have hk' := hkept k hk (hused k hk (heq ▸ hne))
    have hj' := hkept j hj (hused j hj hne)
    rw [hj'] at hne heq
    rw [hk'] at heq
    exact h.injective j hj k hk hne heq
  · intro r hr hfresh
    obtain ⟨hr, hne⟩ := hmem.mp hr
    obtain ⟨j, hj, hmap⟩ := h.exists_slot r hr hfresh
    have hother : t.imsiMap j ≠ teid.toInt32 := fun heq ↦ hne (toInt32_injective (hmap ▸ heq))
    exact ⟨j, hj, (hkept j hj hother).trans hmap⟩

theorem Table.Represents.free (h : t.Represents u) (hteid : teid ≠ 0) {i : ℕ}
    (hi : i < imsiMapSize) (hmap : t.imsiMap i = teid.toInt32) :
    (t.free i).Represents (u.filter fun r ↦ r.teid ≠ teid) := by
  refine h.cross_out rfl rfl (fun j hj heq ↦ ?_) fun j _ hne ↦ ?_
  · rw [h.injective j hj i hi (heq ▸ toInt32_ne_zero hteid) (heq.trans hmap.symm)]
    exact t.imsiMap_free_self
  · exact t.imsiMap_free_of_ne fun hji ↦ hne (hji ▸ hmap)

/-- A request whose slot has been overwritten is crossed out all the same. -/
theorem Table.Represents.forget (h : t.Represents u)
    (hscan : firstIndex (t.bound teid) imsiMapSize 0 = none) :
    t.Represents (u.filter fun r ↦ r.teid ≠ teid) := by
  refine h.cross_out rfl rfl (fun j hj heq ↦ ?_) fun j _ _ ↦ rfl
  obtain ⟨k, hk⟩ := exists_firstIndex (n := imsiMapSize) (i := 0) (Table.bound_iff.mpr heq)
    (Nat.zero_le _) (by omega)
  rw [hscan] at hk
  cases hk

end Represents

/-! ## Lines -/

/-- The line printed, if it is for a response. -/
def Event.responseLine : Event → Option (ℕ × Line)
  | .stored _ _ _ => none
  | .printed packet line => line.response.map fun _ ↦ (packet, line)

/-- The lines printed for responses, each with the number of its packet. -/
def responseLines (history : List Event) : List (ℕ × Line) :=
  history.filterMap Event.responseLine

/-- The line is printed for the response, with the IMSI of the request that it answers. Of a request
that has expired the IMSI may be missing. -/
structure Answer.PrintedAs (a : Answer) (printed : ℕ × Line) : Prop where
  /-- The line is printed while the response is handled. -/
  index_eq : printed.1 = a.index
  /-- The line is for a response to the identifier. -/
  response_eq : printed.2.response = some a.teid
  /-- The IMSI is that of the request. -/
  imsi_eq : printed.2.imsi = a.request.map (·.imsi.text) ∨
    printed.2.imsi = none ∧ ∃ r ∈ a.request, r.expired = true

theorem map_of_printedAs {answers : List Answer} {lines : List (ℕ × Line)}
    (h : List.Forall₂ Answer.PrintedAs answers lines)
    (hfresh : ∀ a ∈ answers, ∀ r ∈ a.request, r.expired = false) :
    lines.map (fun l ↦ (l.1, l.2.response, l.2.imsi))
      = answers.map fun a ↦ (a.index, some a.teid, a.request.map (·.imsi.text)) := by
  induction h with
  | nil => rfl
  | @cons a printed _ _ hprinted _ ih =>
    have himsi : printed.2.imsi = a.request.map (·.imsi.text) := by
      rcases hprinted.imsi_eq with himsi | ⟨-, r, hr, hexpired⟩
      · exact himsi
      · rw [hfresh a List.mem_cons_self r hr] at hexpired
        cases hexpired
    rw [List.map_cons, List.map_cons, ih fun a' ha' ↦ hfresh a' (List.mem_cons_of_mem _ ha'),
      hprinted.index_eq, hprinted.response_eq, himsi]

theorem visit_request_responseLines {m : Message} (hm : m.isRequest) (v : ElementVisit)
    (s : State) : responseLines (visit m v s).history = responseLines s.history := by
  have hresponse : ¬ m.isResponse := fun h ↦ absurd (hm.symm.trans h) (by decide)
  have hprint : ∀ (pos : ℕ) (s : State),
      responseLines (printAddress m pos s).history = responseLines s.history := by
    intro pos s
    have hline : (m.line pos none).response = none := if_neg hresponse
    rw [printAddress, if_neg hresponse, responseLines, List.filterMap_append,
      List.filterMap_cons_none (by rw [Event.responseLine, hline, Option.map_none]),
      List.filterMap_nil, List.append_nil, responseLines]
  have hstore : ∀ (teid : UInt32) (s : State),
      responseLines (storeBinding m teid s).history = responseLines s.history := by
    intro teid s
    unfold storeBinding
    cases firstIndex (s.table.reusable m.now) imsiMapSize 0 with
    | none => rfl
    | some i =>
      dsimp only
      rw [responseLines, List.filterMap_append, List.filterMap_cons_none rfl, List.filterMap_nil,
        List.append_nil, responseLines]
  have hif : ∀ {c : Prop} [Decidable c] {s₁ s₂ : State},
      responseLines s₁.history = responseLines s₂.history →
      responseLines (if c then s₁ else s₂).history = responseLines s₂.history := by
    intro c _ s₁ s₂ h
    split
    · exact h
    · rfl
  rw [visit, hif (hprint _ _), hif (hstore _ _)]
  exact hif rfl

theorem responseLines_request {p : Packet} {teid : UInt32} {imsi : Imsi}
    (hc : Carries p (.request teid imsi)) {fuel : ℕ} (hfuel : 2 ^ 16 ≤ fuel) {index : ℕ} {now : ℤ}
    {s s' : State} (hs' : decodeGtpPacket fuel index p now s = some s') :
    responseLines s'.history = responseLines s.history := by
  obtain ⟨gtp, front, between, back, hwf, htype, -⟩ := hc
  rw [decodeGtpPacket_of_wellFormed hwf (by simp) (.inl htype) (hwf.length_le.trans hfuel),
    Option.some.injEq] at hs'
  rw [← hs']
  refine List.foldlRecOn
    (motive := fun s₁ : State ↦ responseLines s₁.history = responseLines s.history)
    _ _ rfl fun s₁ hs₁ v _ ↦ ?_
  rw [visit_request_responseLines (m := ⟨index, p, gtp, now⟩) htype, hs₁]

/-! ## The program and the list -/

section Capture

variable {fuel : ℕ} {u : List Request}

/-- One packet: the handler ends, the table goes on representing the unanswered requests, and the
line that is due is printed. -/
theorem Table.Represents.step (hfuel : 2 ^ 16 ≤ fuel) {s : State} (h : s.table.Represents u)
    (c : Captured) (htimely : c.Timely u) (index : ℕ) :
    ∃ s' lines, decodeGtpPacket fuel index c.packet c.now s = some s' ∧
      s'.table.Represents (c.advance u) ∧
      responseLines s'.history = responseLines s.history ++ lines ∧
      List.Forall₂ Answer.PrintedAs (c.answer index u).toList lines := by
  have hcarries := c.carries
  unfold Captured.Timely at htimely
  unfold Captured.advance Captured.answer
  cases hcontent : c.content with
  | request teid imsi =>
    rw [hcontent] at hcarries htimely
    obtain ⟨hteid, hnew, hroom⟩ := htimely
    obtain ⟨s', hs', htable⟩ := decodeGtpPacket_request hcarries hfuel index c.now s
    obtain ⟨j, hj, hreusable⟩ := h.exists_reusable hroom
    obtain ⟨i, hscan⟩ := exists_firstIndex (n := imsiMapSize) (i := 0) hreusable (Nat.zero_le _)
      (by omega)
    obtain ⟨hfree, -, hi⟩ := firstIndex_eq_some hscan
    rw [Table.afterRequest, hscan] at htable
    refine ⟨s', [], hs', htable ▸ h.bind hteid hnew (by omega) hfree imsi, ?_, .nil⟩
    rw [List.append_nil, responseLines_request hcarries hfuel hs']
  | response teid addressed =>
    rw [hcontent] at hcarries htimely
    obtain ⟨s', hs', hafter⟩ := decodeGtpPacket_response hcarries hfuel index c.now s
    cases addressed with
    | false =>
      refine ⟨s', [], hs', hafter.1 ▸ h, ?_, .nil⟩
      rw [List.append_nil, hafter.2]
    | true =>
      obtain ⟨line, hhistory, hresponse, hmatch⟩ := hafter
      have hlines : responseLines s'.history = responseLines s.history ++ [(index, line)] := by
        rw [hhistory, responseLines, List.filterMap_append, List.filterMap_cons_some
          (b := (index, line)) (by rw [Event.responseLine, hresponse, Option.map_some]),
          List.filterMap_nil, responseLines]
      cases hscan : firstIndex (s.table.bound teid) imsiMapSize 0 with
      | none =>
        rw [hscan] at hmatch
        refine ⟨s', _, hs', hmatch.1 ▸ h.forget hscan, hlines, .cons ⟨rfl, hresponse, ?_⟩ .nil⟩
        -- there is no slot: either nobody asks, or the request has expired
        cases hfind : u.find? fun r ↦ r.teid = teid with
        | none => exact .inl hmatch.2
        | some r =>
          have hr_teid : r.teid = teid := by simpa using List.find?_some hfind
          exact .inr ⟨hmatch.2, r, rfl,
            h.expired_of_firstIndex hscan (List.mem_of_find?_eq_some hfind) hr_teid⟩
      | some i =>
        rw [hscan] at hmatch
        obtain ⟨hi, r, hr, rfl, hholds⟩ := h.firstIndex_bound htimely hscan
        refine ⟨s', _, hs', hmatch.1 ▸ h.free htimely hi hholds.imsiMap_eq, hlines,
          .cons ⟨rfl, hresponse, .inl ?_⟩ .nil⟩
        dsimp only
        rw [hmatch.2, hholds.shows.imsi_eq hi, h.find?_eq_some hr, Option.map_some]
  | other =>
    rw [hcontent] at hcarries
    exact ⟨s, [], decodeGtpPacket_other hcarries fuel index c.now s, h,
      (List.append_nil _).symm, .nil⟩

/-- A whole capture, packet by packet. -/
theorem Table.Represents.run (hfuel : 2 ^ 16 ≤ fuel) (capture : List Captured) :
    ∀ {u : List Request} {s : State} (index : ℕ), s.table.Represents u → PacedFrom u capture →
      ∃ s' lines, decodePackets fuel index (capture.map Captured.input) s = some s' ∧
        responseLines s'.history = responseLines s.history ++ lines ∧
        List.Forall₂ Answer.PrintedAs (answersFrom index u capture) lines := by
  induction capture with
  | nil => exact fun index _ _ ↦ ⟨_, [], rfl, (List.append_nil _).symm, .nil⟩
  | cons c capture ih =>
    intro u s index h hpaced
    obtain ⟨htimely, hpaced'⟩ := pacedFrom_cons.mp hpaced
    obtain ⟨s₁, lines₁, hs₁, h₁, hlines₁, hprinted₁⟩ := h.step hfuel c htimely index
    obtain ⟨s', lines, hs', hlines, hprinted⟩ := ih (index + 1) h₁ hpaced'
    refine ⟨s', lines₁ ++ lines, ?_, ?_, List.rel_append hprinted₁ hprinted⟩
    · rw [List.map_cons, Captured.input, decodePackets, hs₁, Option.bind_some, hs']
    · rw [hlines, hlines₁, List.append_assoc]

/-- **The program prints the answers.** On a capture that the table can cope with, `gtpimsieua`
prints one line for each response that carries an address, in the order of the responses, with the
IMSI of the request that the response answers: the last one for its identifier, if it has not been
answered before. Only if the slot of that request had been taken for longer than the timeout when
another request came can the IMSI be missing. -/
theorem gtpimsieua_prints_answers (hfuel : 2 ^ 16 ≤ fuel) (capture : List Captured)
    (hpaced : PacedFrom [] capture) :
    ∃ s, decodePackets fuel 0 (capture.map Captured.input) State.init = some s ∧
      List.Forall₂ Answer.PrintedAs (answersFrom 0 [] capture) (responseLines s.history) ∧
      ((∀ a ∈ answersFrom 0 [] capture, ∀ r ∈ a.request, r.expired = false) →
        (responseLines s.history).map (fun l ↦ (l.1, l.2.response, l.2.imsi))
          = (answersFrom 0 [] capture).map
            fun a ↦ (a.index, some a.teid, a.request.map (·.imsi.text))) := by
  obtain ⟨s, lines, hs, hlines, hprinted⟩ :=
    Table.represents_init.run (s := State.init) hfuel capture 0 hpaced
  rw [show responseLines State.init.history = [] from rfl, List.nil_append] at hlines
  refine ⟨s, hs, hlines ▸ hprinted, fun hfresh ↦ ?_⟩
  rw [hlines, map_of_printedAs hprinted hfresh]

end Capture

/-- A request, its response and the same response once more: the second line is printed without an
IMSI. -/
theorem gtpimsieua_prints_answers_duplicate :
    ∃ s, decodePackets (2 ^ 16) 0
        ([capturedRequest (fun _ ↦ 1) 5, capturedResponse 5, capturedResponse 5].map
          Captured.input) State.init = some s ∧
      (responseLines s.history).map (fun l ↦ (l.1, l.2.response, l.2.imsi))
        = [(1, some 5, some (Imsi.text fun _ ↦ 1)), (2, some 5, none)] := by
  have hpaced : PacedFrom [] [capturedRequest (fun _ ↦ 1) 5, capturedResponse 5,
      capturedResponse 5] := by
    refine pacedFrom_cons.mpr ⟨⟨by decide, by simp, by decide⟩, pacedFrom_cons.mpr ⟨?_,
      pacedFrom_cons.mpr ⟨?_, pacedFrom_nil _⟩⟩⟩ <;> exact (by decide : (5 : UInt32) ≠ 0)
  obtain ⟨s, hs, -, hlines⟩ := gtpimsieua_prints_answers (le_refl _) _ hpaced
  refine ⟨s, hs, hlines ?_⟩
  intro a ha r hr
  have hanswers : answersFrom 0 [] [capturedRequest (fun _ ↦ 1) 5, capturedResponse 5,
      capturedResponse 5] = [⟨1, 5, some ⟨5, fun _ ↦ 1, 0, false⟩⟩, ⟨2, 5, none⟩] := rfl
  rw [hanswers] at ha
  rcases List.mem_pair.mp ha with rfl | rfl
  · rw [← Option.some.inj hr]
  · cases hr

end Gtpimsieua

end DistributorMerger
