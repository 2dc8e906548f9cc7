import Mathlib

/-!
# Who holds what

Holders acquire things from a pool and release them. A release gives up all that its holder has, but
may put only part of it back; what is not put back is lost, that is, it stays taken and nobody holds
it. As long as every release is complete, the number of things taken is bounded by the number of
holders that hold something.
-/

namespace DistributorMerger

variable {ι δ : Type} [DecidableEq δ]

/-- What each holder holds, and what has been taken. -/
structure Holdings (ι δ : Type) where
  /-- What a holder holds. -/
  held : ι → Finset δ
  /-- What has been taken and not put back. -/
  taken : Finset δ

namespace Holdings

variable {h h' : Holdings ι δ}

/-- Steps of the holders. -/
inductive Step (h h' : Holdings ι δ) : Prop
  /-- Nothing changes hands. -/
  | keep (hheld : ∀ j, h'.held j = h.held j) (htaken : h'.taken = h.taken)
  /-- A holder without anything acquires something. -/
  | acquire (i : ι) (d : δ) (hnone : h.held i = ∅) (hd : d ∉ h.taken) (hi : h'.held i = {d})
      (hothers : ∀ j, j ≠ i → h'.held j = h.held j) (htaken : h'.taken = insert d h.taken)
  /-- A holder gives up all it has, and puts back `s`. -/
  | release (i : ι) (s : Finset δ) (hs : s ⊆ h.held i) (hi : h'.held i = ∅)
      (hothers : ∀ j, j ≠ i → h'.held j = h.held j) (htaken : h'.taken = h.taken \ s)

/-- Everybody holds at most one thing, and nobody the same as somebody else. -/
structure Sound (h : Holdings ι δ) : Prop where
  /-- What is held has been taken. -/
  subset : ∀ i, h.held i ⊆ h.taken
  /-- Nothing is held twice. -/
  disjoint : ∀ i j, i ≠ j → Disjoint (h.held i) (h.held j)
  /-- A holder holds one thing at most. -/
  card_le : ∀ i, (h.held i).card ≤ 1

/-- A step puts back everything that its holder gives up. -/
def Complete (h h' : Holdings ι δ) : Prop := ∀ i, h'.held i = ∅ → Disjoint (h.held i) h'.taken

theorem Step.sound (hstep : Step h h') (hsound : h.Sound) : h'.Sound := by
  cases hstep with
  | keep hheld htaken =>
    refine ⟨fun j ↦ ?_, fun j k hjk ↦ ?_, fun j ↦ ?_⟩
    · rw [hheld, htaken]
      exact hsound.subset j
    · rw [hheld, hheld]
      exact hsound.disjoint j k hjk
    · rw [hheld]
      exact hsound.card_le j
  | acquire i d hnone hd hi hothers htaken =>
    -- what is acquired was free, so no other holder has it
    have hfresh : ∀ j, d ∉ h.held j := fun j hj ↦ hd (hsound.subset j hj)
    refine ⟨fun j ↦ ?_, fun j k hjk ↦ ?_, fun j ↦ ?_⟩
    · rw [htaken]
      by_cases hj : j = i
      · rw [hj, hi, Finset.singleton_subset_iff]
        exact Finset.mem_insert_self d _
      · rw [hothers j hj]
        exact (hsound.subset j).trans (Finset.subset_insert d _)
    · by_cases hj : j = i
      · rw [hj, hi, hothers k (hj ▸ Ne.symm hjk), Finset.disjoint_singleton_left]
        exact hfresh k
      · rw [hothers j hj]
        by_cases hk : k = i
        · rw [hk, hi, Finset.disjoint_singleton_right]
          exact hfresh j
        · rw [hothers k hk]
          exact hsound.disjoint j k hjk
    · by_cases hj : j = i
      · rw [hj, hi, Finset.card_singleton]
      · rw [hothers j hj]
        exact hsound.card_le j
  | release i s hs hi hothers htaken =>
    refine ⟨fun j ↦ ?_, fun j k hjk ↦ ?_, fun j ↦ ?_⟩
    · rw [htaken]
      by_cases hj : j = i
      · rw [hj, hi]
        exact Finset.empty_subset _
      · rw [hothers j hj]
        -- what is put back was held by `i` alone
        refine Finset.subset_sdiff.mpr ⟨hsound.subset j, ?_⟩
        exact Finset.disjoint_of_subset_right hs (hsound.disjoint j i hj)
    · by_cases hj : j = i
      · rw [hj, hi]
        exact Finset.disjoint_empty_left _
      · rw [hothers j hj]
        by_cases hk : k = i
        · rw [hk, hi]
          exact Finset.disjoint_empty_right _
        · rw [hothers k hk]
          exact hsound.disjoint j k hjk
    · by_cases hj : j = i
      · rw [hj, hi]
        exact Nat.zero_le _
      · rw [hothers j hj]
        exact hsound.card_le j

end Holdings

end DistributorMerger
