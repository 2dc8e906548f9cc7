import DistributorMerger.Session.Discipline

/-!
# Which slot is visited

The supervisor visits one slot at a time. What it executes between two visits that it begins are
statements of the visit it began last, so every statement of a stopper is a statement about the slot
that was visited last.
-/

namespace DistributorMerger

/-- The slot that the supervisor has begun to visit last. -/
def visited (as : List Action) : Option Slot :=
  as.foldl (fun v a ↦ match a with
    | .visits i => some i
    | _ => v) none

theorem visited_concat_visits (as : List Action) (i : Slot) :
    visited (as ++ [.visits i]) = some i := by
  rw [visited, List.foldl_append, List.foldl_cons, List.foldl_nil]

theorem visited_concat_of_ne {as : List Action} {a : Action} (ha : ∀ i, a ≠ .visits i) :
    visited (as ++ [a]) = visited as := by
  rw [visited, List.foldl_append, List.foldl_cons, List.foldl_nil]
  cases a with
  | visits i => exact absurd rfl (ha i)
  | _ => rfl

/-- The visit takes supervisor steps at slot `i`. -/
def Machine.Visits (c : Machine) (i : Slot) : Prop :=
  c.visit.Sat (Attends i) (SupervisorStep i) (fun _ _ ↦ True) c.world

section Visiting

variable {c c' : Machine} {i : Slot} {a : Action} {as : List Action}

theorem Machine.Visits.beside {w' : World} {pool : ℕ → SessionProg Unit} (h : c.Visits i)
    (hbeside : Beside i c.world w') (horderly : Orderly w') :
    Machine.Visits ⟨w', c.visit, pool⟩ i := h.rely ⟨hbeside, horderly⟩

theorem Machine.Visits.supervises (h : c.Visits i) (hsound : c.Sound) {z : ℤ}
    (hstep : c.step (.supervises z) = some c') :
    SupervisorStep i c.world c'.world ∧ c'.Visits i := by
  obtain ⟨p, w', hnext, -, rfl⟩ := Machine.supervises_cases hstep
  obtain ⟨hG, hrest⟩ := h.step_of hsound.orderly.attends (Prog.step_of_next hnext)
  refine ⟨?_, hrest⟩
  rcases hG with hG | rfl
  · exact hG
  · exact .pauses

/-- **One action** leaves the visit what it is, unless it begins another. -/
theorem Machine.Visits.step (h : c.Visits i) (hsound : c.Sound) (ha : ∀ k, a ≠ .visits k)
    (hstep : c.step a = some c') : c'.Visits i := by
  have hsound' := (hsound.step hstep).2
  cases a with
  | opens call answer =>
    obtain ⟨r, w', hexec, rfl⟩ := Machine.opens_cases hstep
    exact h.beside (openEffect_of_exec hexec).beside hsound'.orderly
  | visits k => exact absurd rfl (ha k)
  | supervises z => exact (h.supervises hsound hstep).2
  | runs t z =>
    obtain ⟨k, m, p, w', -, ht, hnext, rfl⟩ := Machine.runs_cases hstep
    have hthread := (hsound.runs ht hnext).1
    exact h.beside (hthread.beside ht hsound.orderly.lifecycle) hsound'.orderly
  | delivers t p =>
    obtain ⟨x, -, -, rfl⟩ := Machine.delivers_cases hstep
    exact h
  | ends t =>
    obtain ⟨k, m, -, -, rfl⟩ := Machine.ends_cases hstep
    exact h
  | closes =>
    cases hstep
    exact h.beside beside_closes hsound'.orderly

/-- **What the supervisor executes** are statements of the visit it has begun last. -/
theorem Machine.visits_of_run (hrun : Machine.init.run as = some c)
    (hvisited : visited as = some i) : c.Visits i := by
  induction as using List.reverseRecOn generalizing c with
  | nil => cases hvisited
  | append_singleton as a ih =>
    rw [Machine.run_append, Option.bind_eq_some_iff] at hrun
    obtain ⟨c₁, hrun₁, hstep⟩ := hrun
    obtain ⟨c₂, hstep, hc⟩ := Option.bind_eq_some_iff.mp hstep
    cases hc
    have hsound := Machine.sound_of_run hrun₁
    by_cases ha : ∃ k, a = .visits k
    · obtain ⟨k, rfl⟩ := ha
      rw [visited_concat_visits] at hvisited
      cases hvisited
      obtain ⟨hreturned, rfl⟩ := Machine.visits_cases hstep
      exact steps_superviseSession i _ (hsound.quiet hreturned)
    · have ha : ∀ k, a ≠ .visits k := fun k hk ↦ ha ⟨k, hk⟩
      rw [visited_concat_of_ne ha] at hvisited
      exact (ih hrun₁ hvisited).step hsound ha hstep

end Visiting

end DistributorMerger
