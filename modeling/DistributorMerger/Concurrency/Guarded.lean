import DistributorMerger.Concurrency.Triple

/-!
# Programs under a condition

Some programs are right only as long as their own statements meet a condition `A`. The program
`p.guard A` is `p`, stopped before a statement that does not meet `A`: what is shown of `p.guard A`
is true of `p` in every run in which its statements meet `A`.

`Leads E T p` says that wherever a statement of `p` makes a step in `E`, the rest of the program is
in `T` at the state that the step leads to. It says so of the program alone: no state is given, and
no other program is asked.
-/

namespace DistributorMerger

namespace Prog

variable {κ σ α β : Type} {R G A E : σ → σ → Prop} {P : σ → Prop} {Q : α → σ → Prop}
  {p p' : Prog κ σ α} {s s' : σ}

/-! ## Guards -/

open scoped Classical in
/-- The statement, disabled where it does not meet `A`. -/
noncomputable def guardStatement (A : σ → σ → Prop) (f : σ → Option σ) (s : σ) : Option σ :=
  (f s).filter fun s' ↦ decide (A s s')

theorem guardStatement_eq_some {f : σ → Option σ} :
    guardStatement A f s = some s' ↔ f s = some s' ∧ A s s' := by
  simp only [guardStatement, Option.filter_eq_some_iff, decide_eq_true_iff]

/-- The program, stopped before a statement that does not meet `A`. -/
noncomputable def guard (A : σ → σ → Prop) : Prog κ σ α → Prog κ σ α
  | ret a => ret a
  | act f k => act (guardStatement A f) fun s ↦ (k s).guard A
  | ask q k => ask q fun z ↦ (k z).guard A

theorem guard_bind (A : σ → σ → Prop) (p : Prog κ σ α) (g : α → Prog κ σ β) :
    (p >>= g).guard A = p.guard A >>= fun a ↦ (g a).guard A := by
  induction p with
  | ret a => rfl
  | act f k ih =>
    rw [act_bind, guard, guard, act_bind]
    exact congrArg _ (funext ih)
  | ask q k ih =>
    rw [ask_bind, guard, guard, ask_bind]
    exact congrArg _ (funext ih)

theorem Step.guard (h : Step p s p' s') (hA : A s s') : Step (p.guard A) s (p'.guard A) s' := by
  cases h with
  | act hf => exact .act (guardStatement_eq_some.mpr ⟨hf, hA⟩)
  | ask z => exact .ask z

/-- A guarded program does nothing else. -/
theorem Sat.guard (h : p.Sat R G Q s) : (p.guard A).Sat R G Q s := by
  induction p generalizing s with
  | ret a => exact h
  | act f k ih =>
    intro s₁ h₁ s₂ h₂
    obtain ⟨hG, hrest⟩ := h s₁ h₁ s₂ (guardStatement_eq_some.mp h₂).1
    exact ⟨hG, ih s₁ hrest⟩
  | ask q k ih => exact fun z ↦ ih z (h z)

theorem Triple.guard (h : Triple R G P p Q) : Triple R G P (p.guard A) Q := fun s hs ↦
  (h s hs).guard

theorem Triple.guard_bind [Settles R] {M : α → σ → Prop} {g : α → Prog κ σ β} {Q : β → σ → Prop}
    (hp : Triple R G P (p.guard A) M) (hg : ∀ a, Triple R G (M a) ((g a).guard A) Q) :
    Triple R G P ((p >>= g).guard A) Q := by
  rw [Prog.guard_bind]
  exact hp.bind hg

theorem Triple.guard_modify [Settles R] {f : σ → σ} {Q : σ → Prop} (hP : Stable R P)
    (hQ : Stable R Q) (hG : ∀ s, P s → G s (f s)) (h : ∀ s, R s s → P s → A s (f s) → Q (f s)) :
    Triple R G P ((Prog.modify f : Prog κ σ Unit).guard A) fun _ ↦ Q := by
  intro s hs s₁ h₁ s₂ h₂
  obtain ⟨hsome, hA⟩ := guardStatement_eq_some.mp h₂
  obtain rfl := Option.some.inj hsome
  have hs₁ := hP s s₁ h₁ hs
  refine ⟨hG s₁ hs₁, fun s₃ h₃ ↦ hQ (f s₁) s₃ h₃ ?_⟩
  exact h s₁ (Settles.settles h₁) hs₁ hA

theorem Triple.guard_ite {c : Prop} [Decidable c] (hp : c → Triple R G P (p.guard A) Q)
    (hp' : ¬ c → Triple R G P (p'.guard A) Q) : Triple R G P ((if c then p else p').guard A) Q := by
  split
  · exact hp ‹_›
  · exact hp' ‹_›

theorem Sat.of_imp {R' : σ → σ → Prop} (h : p.Sat R G Q s) (hR : ∀ s s', R' s s' → R s s') :
    p.Sat R' G Q s := by
  induction p generalizing s with
  | ret a => exact fun s' hs' ↦ h s' (hR s s' hs')
  | act f k ih =>
    intro s₁ h₁ s₂ h₂
    obtain ⟨hG, hrest⟩ := h s₁ (hR s s₁ h₁) s₂ h₂
    exact ⟨hG, ih s₁ hrest⟩
  | ask q k ih => exact fun z ↦ ih z (h z)

theorem Triple.of_imp {R' : σ → σ → Prop} (h : Triple R G P p Q) (hR : ∀ s s', R' s s' → R s s') :
    Triple R' G P p Q := fun s hs ↦ (h s hs).of_imp hR

/-! ## What statements lead to -/

/-- Wherever a statement makes a step in `E`, the rest of the program is in `T`. -/
def Leads (E : σ → σ → Prop) (T : Prog κ σ α → σ → Prop) : Prog κ σ α → Prop
  | ret _ => True
  | act f k => ∀ s s', f s = some s' → (E s s' → T (k s) s') ∧ Leads E T (k s)
  | ask _ k => ∀ z, Leads E T (k z)

section Leads

variable {T : Prog κ σ α → σ → Prop}

theorem Leads.next {z : ℤ} (h : p.Leads E T) (hE : ∀ s, ¬ E s s)
    (hnext : p.next z s = some (p', s')) : (E s s' → T p' s') ∧ p'.Leads E T := by
  cases p with
  | ret a => cases hnext
  | act f k =>
    obtain ⟨s₁, hf, heq⟩ := Option.map_eq_some_iff.mp hnext
    cases heq
    exact h s s' hf
  | ask q k =>
    cases hnext
    exact ⟨fun hs ↦ absurd hs (hE s), h z⟩

theorem Within.leads (h : p.Within fun s s' ↦ ¬ E s s') : p.Leads E T := by
  induction p with
  | ret a => trivial
  | act f k ih => exact fun s s' hf ↦ ⟨fun hE ↦ absurd hE (h.1 s s' hf), ih s (h.2 s)⟩
  | ask q k ih => exact fun z ↦ ih z (h z)

theorem Within.leads_bind {q : Prog κ σ β} {g : β → Prog κ σ α}
    (h : q.Within fun s s' ↦ ¬ E s s') (hg : ∀ b, (g b).Leads E T) : (q >>= g).Leads E T := by
  induction q with
  | ret b => exact hg b
  | act f k ih => exact fun s s' hf ↦ ⟨fun hE ↦ absurd hE (h.1 s s' hf), ih s (h.2 s)⟩
  | ask q k ih => exact fun z ↦ ih z (h z)

theorem Leads.modify_bind {f : σ → σ} {g : Unit → Prog κ σ α}
    (h : ∀ s, E s (f s) → T (g ()) (f s)) (hg : (g ()).Leads E T) :
    (Prog.modify f >>= g).Leads E T := by
  intro s s' hf
  obtain rfl := Option.some.inj hf
  exact ⟨h s, hg⟩

theorem Leads.ite {c : Prop} [Decidable c] (hp : p.Leads E T) (hp' : p'.Leads E T) :
    (if c then p else p').Leads E T := by
  split
  · exact hp
  · exact hp'

end Leads

end Prog

end DistributorMerger
