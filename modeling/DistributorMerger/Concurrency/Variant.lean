import DistributorMerger.Concurrency.Runs

/-!
# Variants of runs

Some events of a run are *ticks*. A variant is a number that every tick lowers and that no other
event raises, so that a run has at most as many ticks as the variant is at its beginning. Where a
tick lowers the variant unless it meets a goal, a run with more ticks meets the goal.
-/

namespace DistributorMerger

variable {σ ε : Type} {step : σ → ε → Option σ} {tick : ε → Bool} {I : σ → Prop}
  {P : σ → ε → σ → Prop} {variant : σ → ℕ} {s s' : σ} {es : List ε}

theorem steps_of_cons {e : ε} {s₀ : σ} (hs₀ : step s e = some s₀)
    (hP : ∀ es₁ e' es₂ s₁ s₂, e :: es = es₁ ++ e' :: es₂ → es₁.foldlM step s = some s₁ →
      step s₁ e' = some s₂ → P s₁ e' s₂) :
    ∀ es₁ e' es₂ s₁ s₂, es = es₁ ++ e' :: es₂ → es₁.foldlM step s₀ = some s₁ →
      step s₁ e' = some s₂ → P s₁ e' s₂ := by
  intro es₁ e' es₂ s₁ s₂ heq hrun
  refine hP (e :: es₁) e' es₂ s₁ s₂ (by rw [heq]; rfl) ?_
  rw [List.foldlM_cons, hs₀]
  exact hrun

/-- **Draining.** When a tick lowers the variant by one, as far as there is anything left of it, a
run lowers it by the number of its ticks. -/
theorem foldlM_drains
    (hstep : ∀ s e s', I s → P s e s' → step s e = some s' →
      I s' ∧ variant s' ≤ variant s - if tick e then 1 else 0)
    (hP : ∀ es₁ e es₂ s₁ s₂, es = es₁ ++ e :: es₂ → es₁.foldlM step s = some s₁ →
      step s₁ e = some s₂ → P s₁ e s₂)
    (hs : I s) (hrun : es.foldlM step s = some s') :
    I s' ∧ variant s' ≤ variant s - es.countP tick := by
  induction es generalizing s with
  | nil =>
    cases hrun
    exact ⟨hs, le_refl _⟩
  | cons e es ih =>
    rw [List.foldlM_cons] at hrun
    obtain ⟨s₁, hs₁, hrun⟩ := Option.bind_eq_some_iff.mp hrun
    obtain ⟨hI, hle⟩ := hstep s e s₁ hs (hP [] e es s s₁ rfl rfl hs₁) hs₁
    obtain ⟨hI', hrest⟩ := ih (steps_of_cons hs₁ hP) hI hrun
    refine ⟨hI', ?_⟩
    rw [List.countP_cons]
    omega

/-- **Bounded response.** When a tick that does not meet the goal lowers the variant, and no event
raises it unless a tick has met the goal, a run with more ticks than the variant is at its beginning
has a tick that meets the goal. -/
theorem exists_tick_of_variant {goal : σ → ε → σ → Prop}
    (hstep : ∀ s e s', I s → P s e s' → step s e = some s' → ¬ (tick e = true ∧ goal s e s') →
      I s' ∧ variant s' + (if tick e then 1 else 0) ≤ variant s)
    (hP : ∀ es₁ e es₂ s₁ s₂, es = es₁ ++ e :: es₂ → es₁.foldlM step s = some s₁ →
      step s₁ e = some s₂ → P s₁ e s₂)
    (hs : I s) (hrun : es.foldlM step s = some s') (hticks : variant s < es.countP tick) :
    ∃ es₁ e es₂ s₁ s₂, es = es₁ ++ e :: es₂ ∧ es₁.foldlM step s = some s₁ ∧
      step s₁ e = some s₂ ∧ tick e = true ∧ goal s₁ e s₂ := by
  induction es generalizing s with
  | nil => exact absurd hticks (Nat.not_lt_zero _)
  | cons e es ih =>
    rw [List.foldlM_cons] at hrun
    obtain ⟨s₁, hs₁, hrun⟩ := Option.bind_eq_some_iff.mp hrun
    by_cases hgoal : tick e = true ∧ goal s e s₁
    · exact ⟨[], e, es, s, s₁, rfl, rfl, hs₁, hgoal⟩
    · obtain ⟨hI, hle⟩ := hstep s e s₁ hs (hP [] e es s s₁ rfl rfl hs₁) hs₁ hgoal
      rw [List.countP_cons] at hticks
      obtain ⟨es₁, e', es₂, s₂, s₃, heq, hrun', hrest⟩ :=
        ih (steps_of_cons hs₁ hP) hI hrun (by omega)
      refine ⟨e :: es₁, e', es₂, s₂, s₃, by rw [heq]; rfl, ?_, hrest⟩
      rw [List.foldlM_cons, hs₁]
      exact hrun'

end DistributorMerger
