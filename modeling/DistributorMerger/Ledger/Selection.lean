import Mathlib

/-!
# Two selections from one sequence

Two filters of the same sequence pick subsequences independently of each other. The subsequences
agree position by position for the length of the first exactly when the first filter is contained
in the second and no element picked only by the second stands in front of one picked by the first.
-/

namespace DistributorMerger

variable {α β : Type*} {f : α → β} {P Q : α → Bool}

/-- The first selection is a leading part of the second. -/
structure LeadsSelection (P Q : α → Bool) (l : List α) : Prop where
  /-- What the first filter picks, the second picks too. -/
  subset : ∀ x ∈ l, P x = true → Q x = true
  /-- In front of an element of the first selection both pick the same. -/
  lead : l.Pairwise fun x y ↦ P y = true → Q x = true → P x = true

theorem LeadsSelection.tail {x : α} {l : List α} (h : LeadsSelection P Q (x :: l)) :
    LeadsSelection P Q l :=
  ⟨fun y hy ↦ h.subset y (List.mem_cons_of_mem x hy), (List.pairwise_cons.mp h.lead).2⟩

theorem LeadsSelection.of_filter_eq_nil {l : List α} (h : l.filter P = []) :
    LeadsSelection P Q l := by
  have hnone : ∀ x ∈ l, ¬ P x = true := List.filter_eq_nil_iff.mp h
  refine ⟨fun x hx hP ↦ absurd hP (hnone x hx), List.pairwise_of_forall_mem_list ?_⟩
  exact fun _ _ y hy hP ↦ absurd hP (hnone y hy)

/-- The selections of a sequence whose elements are told apart by `f` agree along the first exactly
when the first leads the second. -/
theorem map_filter_prefix_iff {l : List α} (hnodup : (l.map f).Nodup) :
    (l.filter P).map f <+: (l.filter Q).map f ↔ LeadsSelection P Q l := by
  induction l with
  | nil => exact ⟨fun _ ↦ ⟨by simp, List.Pairwise.nil⟩, fun _ ↦ List.prefix_refl _⟩
  | cons x l ih =>
    obtain ⟨hx, hl⟩ := List.nodup_cons.mp (List.map_cons ▸ hnodup)
    have hnot : ∀ R : α → Bool, f x ∉ (l.filter R).map f := by
      intro R hmem
      obtain ⟨y, hy, hyx⟩ := List.mem_map.mp hmem
      exact hx (List.mem_map.mpr ⟨y, (List.mem_filter.mp hy).1, hyx⟩)
    by_cases hP : P x = true
    · by_cases hQ : Q x = true
      · rw [List.filter_cons_of_pos hP, List.filter_cons_of_pos hQ, List.map_cons, List.map_cons,
          List.prefix_cons_inj, ih hl]
        refine ⟨fun h ↦ ⟨?_, List.pairwise_cons.mpr ⟨fun _ _ _ _ ↦ hP, h.lead⟩⟩, fun h ↦ h.tail⟩
        exact List.forall_mem_cons.mpr ⟨fun _ ↦ hQ, h.subset⟩
      · -- the first element of the first selection is not in the second
        refine ⟨fun h ↦ ?_, fun h ↦ absurd (h.subset x List.mem_cons_self hP) hQ⟩
        rw [List.filter_cons_of_pos hP, List.filter_cons_of_neg hQ, List.map_cons] at h
        exact absurd (h.subset List.mem_cons_self) (hnot Q)
    · rw [List.filter_cons_of_neg hP]
      by_cases hQ : Q x = true
      · -- the second selection begins with an element that the first never reaches
        rw [List.filter_cons_of_pos hQ, List.map_cons]
        constructor
        · intro h
          refine LeadsSelection.of_filter_eq_nil ?_
          rw [List.filter_cons_of_neg hP]
          cases hfilter : l.filter P with
          | nil => rfl
          | cons y ys =>
            rw [hfilter, List.map_cons] at h
            have hyx : f y = f x := (List.cons_prefix_cons.mp h).1
            refine absurd ?_ (hnot P)
            rw [hfilter, List.map_cons, ← hyx]
            exact List.mem_cons_self
        · intro h
          have hnone : l.filter P = [] := by
            refine List.filter_eq_nil_iff.mpr fun y hy hPy ↦ hP ?_
            exact (List.pairwise_cons.mp h.lead).1 y hy hPy hQ
          rw [hnone]
          exact List.nil_prefix
      · rw [List.filter_cons_of_neg hQ, ih hl]
        refine ⟨fun h ↦ ⟨?_, List.pairwise_cons.mpr ⟨fun _ _ _ hQx ↦ absurd hQx hQ, h.lead⟩⟩,
          fun h ↦ h.tail⟩
        exact List.forall_mem_cons.mpr ⟨fun hPx ↦ absurd hPx hP, h.subset⟩

end DistributorMerger
