import Mathlib
import DistributorMerger.Filter.Gtpimsieua

/-!
# The slots of the IMSI table

What the two first-fit scans find, and what the rows of `imsi_array` show after a copy. A text of
fewer than sixteen characters stays inside its row, so a row that shows a text keeps showing it
while other rows are written. No text is lost by freeing a slot: the row stays as it is.
-/

namespace DistributorMerger

namespace Gtpimsieua

/-! ## First-fit scans -/

theorem firstIndex_eq_some {p : ℕ → Bool} :
    ∀ {n i k : ℕ}, firstIndex p n i = some k → p k = true ∧ i ≤ k ∧ k < i + n
  | 0, _, _, h => by cases h
  | n + 1, i, k, h => by
    rw [firstIndex] at h
    by_cases hp : p i = true
    · rw [if_pos hp, Option.some.injEq] at h
      subst h
      exact ⟨hp, le_refl _, by omega⟩
    · rw [if_neg hp] at h
      obtain ⟨hk, hle, hlt⟩ := firstIndex_eq_some h
      exact ⟨hk, by omega, by omega⟩

theorem exists_firstIndex {p : ℕ → Bool} :
    ∀ {n i k : ℕ}, p k = true → i ≤ k → k < i + n → ∃ j, firstIndex p n i = some j
  | 0, _, _, _, hle, hlt => by omega
  | n + 1, i, k, hk, hle, hlt => by
    rw [firstIndex]
    by_cases hp : p i = true
    · exact ⟨i, if_pos hp⟩
    · have hne : i ≠ k := fun hik ↦ hp (hik ▸ hk)
      obtain ⟨j, hj⟩ := exists_firstIndex (n := n) (i := i + 1) hk (by omega) (by omega)
      exact ⟨j, by rw [if_neg hp, hj]⟩

theorem firstIndex_of_unique {p : ℕ → Bool} {n k : ℕ} (hlt : k < n) (hk : p k = true)
    (hunique : ∀ j < n, p j = true → j = k) : firstIndex p n 0 = some k := by
  obtain ⟨j, hj⟩ := exists_firstIndex (n := n) (i := 0) hk (Nat.zero_le _) (by omega)
  obtain ⟨hpj, -, hjlt⟩ := firstIndex_eq_some hj
  rw [hj, hunique j (by omega) hpj]

theorem Table.bound_iff {t : Table} {teid : UInt32} {i : ℕ} :
    t.bound teid i = true ↔ t.imsiMap i = teid.toInt32 := by
  rw [Table.bound, decide_eq_true_iff]
  constructor
  · rintro rfl
    exact (Int32.toInt32_toUInt32 _).symm
  · intro h
    rw [h, UInt32.toUInt32_toInt32]

theorem toInt32_ne_zero {teid : UInt32} (h : teid ≠ 0) : teid.toInt32 ≠ 0 := by
  intro hzero
  have := congrArg Int32.toUInt32 hzero
  rw [UInt32.toUInt32_toInt32] at this
  exact h this

theorem toInt32_injective {t t' : UInt32} (h : t.toInt32 = t'.toInt32) : t = t' := by
  have := congrArg Int32.toUInt32 h
  rwa [UInt32.toUInt32_toInt32, UInt32.toUInt32_toInt32] at this

theorem Table.reusable_iff {t : Table} {now : ℤ} {i : ℕ} :
    t.reusable now i = true ↔ t.imsiMap i = 0 ∨ t.imsiTime i + imsiTimeout < now := by
  rw [Table.reusable, Bool.or_eq_true, decide_eq_true_iff, decide_eq_true_iff]

/-! ## Assignments -/

section Assignments

variable (t : Table) {i j : ℕ} {teid : UInt32} {now : ℤ} {s : String}

@[simp] theorem Table.imsiMap_bind_self : (t.bind i teid now s).imsiMap i = teid.toInt32 :=
  Function.update_self ..

theorem Table.imsiMap_bind_of_ne (h : j ≠ i) : (t.bind i teid now s).imsiMap j = t.imsiMap j :=
  Function.update_of_ne h _ _

@[simp] theorem Table.imsiTime_bind_self : (t.bind i teid now s).imsiTime i = now :=
  Function.update_self ..

theorem Table.imsiTime_bind_of_ne (h : j ≠ i) :
    (t.bind i teid now s).imsiTime j = t.imsiTime j :=
  Function.update_of_ne h _ _

@[simp] theorem Table.imsiMap_free_self : (t.free i).imsiMap i = 0 := Function.update_self ..

theorem Table.imsiMap_free_of_ne (h : j ≠ i) : (t.free i).imsiMap j = t.imsiMap j :=
  Function.update_of_ne h _ _

@[simp] theorem Table.imsi_free : (t.free i).imsi j = t.imsi j := rfl

end Assignments

/-! ## Rows -/

/-- A text that fits a row and is not cut short by a terminator of its own. -/
structure Fits (s : String) : Prop where
  /-- There is room for the terminator. -/
  length_lt : s.toList.length < rowLength
  /-- There is no terminator inside. -/
  terminator_notMem : '\x00' ∉ s.toList

/-- Row `i` shows the text `s`. -/
structure Table.Shows (t : Table) (i : ℕ) (s : String) : Prop where
  /-- The text fits the row. -/
  fits : Fits s
  /-- The row holds the text and its terminator. -/
  chars : ∀ k ≤ s.toList.length, t.imsiArray (i * rowLength + k) = s.toList.getD k '\x00'

theorem Table.shows_bind {t : Table} {i : ℕ} {teid : UInt32} {now : ℤ} {s : String}
    (hs : Fits s) : (t.bind i teid now s).Shows i s := by
  refine ⟨hs, fun k hk ↦ ?_⟩
  simp only [Table.bind, strcpy]
  rw [if_pos ⟨by omega, by omega⟩, Nat.add_sub_cancel_left]

theorem Table.Shows.bind_of_ne {t : Table} {i j : ℕ} {s s' : String} (h : t.Shows j s)
    (teid : UInt32) (now : ℤ) (hs' : Fits s') (hji : j ≠ i) : (t.bind i teid now s').Shows j s := by
  refine ⟨h.fits, fun k hk ↦ ?_⟩
  have hlen := h.fits.length_lt
  have hlen' := hs'.length_lt
  have houtside : ¬ (i * rowLength ≤ j * rowLength + k ∧
      j * rowLength + k ≤ i * rowLength + s'.toList.length) := by
    rw [show rowLength = 16 from rfl] at hlen hlen' ⊢
    omega
  simp only [Table.bind, strcpy]
  rw [if_neg houtside, h.chars k hk]

theorem Table.Shows.free {t : Table} {i j : ℕ} {s : String} (h : t.Shows j s) :
    (t.free i).Shows j s := ⟨h.fits, h.chars⟩

theorem Table.Shows.imsi_eq {t : Table} {i : ℕ} {s : String} (h : t.Shows i s)
    (hi : i < imsiMapSize) : t.imsi i = s := by
  have hroom : s.toList.length + 1 ≤ imsiMapSize * rowLength - i * rowLength := by
    have hlen := h.fits.length_lt
    rw [show rowLength = 16 from rfl] at hlen ⊢
    omega
  obtain ⟨rest, hrest⟩ := Nat.exists_eq_add_of_le hroom
  have hchars : (List.range' (i * rowLength) s.toList.length).map t.imsiArray = s.toList := by
    refine List.ext_getElem (by simp) fun k hk hk' ↦ ?_
    rw [List.getElem_map, List.getElem_range', Nat.one_mul, h.chars k hk'.le,
      List.getD_eq_getElem _ _ hk']
  have hend : t.imsiArray (i * rowLength + s.toList.length) = '\x00' := by
    rw [h.chars _ (le_refl _), List.getD_eq_default _ _ (le_refl _)]
  have hsplit : List.range' (i * rowLength) (s.toList.length + 1 + rest)
      = List.range' (i * rowLength) s.toList.length
        ++ (i * rowLength + s.toList.length)
          :: List.range' (i * rowLength + s.toList.length + 1) rest := by
    rw [Nat.add_assoc, Nat.add_comm 1 rest, ← List.range'_append_1, List.range'_succ]
  rw [Table.imsi, hrest, hsplit, List.map_append, List.map_cons, hchars, hend,
    List.takeWhile_append_of_pos, List.takeWhile_cons_of_neg (by simp), List.append_nil,
    String.ofList_toList]
  intro c hc
  rw [decide_eq_true_iff]
  rintro rfl
  exact h.fits.terminator_notMem hc

end Gtpimsieua

end DistributorMerger
