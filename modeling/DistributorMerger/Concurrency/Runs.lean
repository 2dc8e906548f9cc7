import Mathlib

/-!
# Runs

A run folds a partial step function over a list of events. What every event preserves under a
condition on the state it happens in holds at the end of a run whose events meet the condition.
-/

namespace DistributorMerger

variable {σ ε : Type} {step : σ → ε → Option σ}

theorem foldlM_append_eq_bind (s : σ) (es es' : List ε) :
    (es ++ es').foldlM step s = (es.foldlM step s).bind fun s' ↦ es'.foldlM step s' := by
  rw [List.foldlM_append]
  rfl

/-- **Induction over runs.** -/
theorem foldlM_induction {I : σ → Prop} {P : σ → ε → Prop} {s s' : σ} {es : List ε}
    (hstep : ∀ s e s', I s → P s e → step s e = some s' → I s')
    (hP : ∀ es₁ e es₂ s₁, es = es₁ ++ e :: es₂ → es₁.foldlM step s = some s₁ → P s₁ e)
    (hs : I s) (hrun : es.foldlM step s = some s') : I s' := by
  induction es generalizing s with
  | nil =>
    cases hrun
    exact hs
  | cons e es ih =>
    rw [List.foldlM_cons] at hrun
    obtain ⟨s₁, hs₁, hrun⟩ := Option.bind_eq_some_iff.mp hrun
    refine ih (fun es₁ e' es₂ s₂ heq hrun' ↦ ?_) (hstep s e s₁ hs (hP [] e es s rfl rfl) hs₁) hrun
    refine hP (e :: es₁) e' es₂ s₂ (by rw [heq]; rfl) ?_
    rw [List.foldlM_cons, hs₁]
    exact hrun'

/-- What is found in every state of a run. -/
theorem foldlM_all_of_take {s s₁ : σ} {es es₁ es₂ : List ε} {p : σ → Prop} [DecidablePred p]
    (h : ∀ n ≤ es.length, ((es.take n).foldlM step s).all (fun s ↦ p s) = true)
    (hes : es = es₁ ++ es₂) (hrun : es₁.foldlM step s = some s₁) : p s₁ := by
  have htake : es.take es₁.length = es₁ := hes ▸ List.take_left
  have hlength : es₁.length ≤ es.length := hes ▸ List.length_append ▸ Nat.le_add_right _ _
  have hp := h es₁.length hlength
  rw [htake, hrun] at hp
  exact of_decide_eq_true hp

end DistributorMerger
