import DistributorMerger.Concurrency.Guarded

/-!
# Programs that do not get stuck

A statement that waits for a lock is disabled until the lock is free. A statement that is disabled
even when there is nothing to wait for is never executed: the program has followed a pointer that
leads nowhere. `Unstuck` says that a program does not come to such a statement.

Whether it does depends on the state, so it is shown together with what the program does. A
`Contract` collects what is given to a program and what is asked of it, and `Safe` is a triple under
a contract: as long as the program's own statements meet the condition of the contract, it keeps the
guarantee and does not get stuck.
-/

namespace DistributorMerger

/-- What a program is given, and what is asked of it. -/
structure Contract (κ σ : Type) where
  /-- The states in which there is nothing to wait for. -/
  idle : σ → Prop
  /-- The questions that the program may ask. -/
  asks : κ → Prop
  /-- What the others may do. -/
  rely : σ → σ → Prop
  /-- The condition that its own statements are supposed to meet. -/
  condition : σ → σ → Prop
  /-- What its own statements do. -/
  guarantee : σ → σ → Prop

namespace Prog

variable {κ σ α β : Type}

/-- The program does not come to a statement that is disabled though there is nothing to wait for,
and asks only the questions that it may ask. -/
def Unstuck (C : Contract κ σ) : Prog κ σ α → σ → Prop
  | ret _, _ => True
  | act f k, s => ∀ s', C.rely s s' → (∀ s, C.idle s → (f s).isSome = true) ∧
      ∀ s'', f s' = some s'' → C.condition s' s'' → Unstuck C (k s') s''
  | ask q k, s => (∀ s', C.rely s s' → C.asks q) ∧ ∀ z, Unstuck C (k z) s

/-- No statement of the program is ever disabled though there is nothing to wait for. -/
def Nimble (C : Contract κ σ) : Prog κ σ α → Prop
  | ret _ => True
  | act f k => (∀ s, C.idle s → (f s).isSome = true) ∧ ∀ s, Nimble C (k s)
  | ask q k => C.asks q ∧ ∀ z, Nimble C (k z)

variable {C : Contract κ σ} {P P' : σ → Prop} {Q Q' : α → σ → Prop} {p p' : Prog κ σ α} {s s' : σ}

/-! ## Nimble programs -/

section Nimble

theorem Nimble.pure (a : α) : (pure a : Prog κ σ α).Nimble C := trivial

theorem Nimble.read (g : σ → β) : (Prog.read g : Prog κ σ β).Nimble C :=
  ⟨fun _ _ ↦ rfl, fun _ ↦ trivial⟩

theorem Nimble.modify (f : σ → σ) : (Prog.modify f : Prog κ σ Unit).Nimble C :=
  ⟨fun _ _ ↦ rfl, fun _ ↦ trivial⟩

theorem Nimble.update (f : σ → σ) (g : σ → β) : (Prog.update f g : Prog κ σ β).Nimble C :=
  ⟨fun _ _ ↦ rfl, fun _ ↦ trivial⟩

theorem Nimble.await {enabled : σ → Bool} {f : σ → σ} (h : ∀ s, C.idle s → enabled s = true) :
    (Prog.await enabled f : Prog κ σ Unit).Nimble C := by
  refine ⟨fun s hs ↦ ?_, fun _ ↦ trivial⟩
  dsimp only
  rw [if_pos (h s hs)]
  rfl

theorem Nimble.query {q : κ} (h : C.asks q) : (Prog.query q : Prog κ σ ℤ).Nimble C :=
  ⟨h, fun _ ↦ trivial⟩

theorem Nimble.bind {g : α → Prog κ σ β} (hp : p.Nimble C) (hg : ∀ a, (g a).Nimble C) :
    (p >>= g).Nimble C := by
  induction p with
  | ret a => exact hg a
  | act f k ih => exact ⟨hp.1, fun s ↦ ih s (hp.2 s)⟩
  | ask q k ih => exact ⟨hp.1, fun z ↦ ih z (hp.2 z)⟩

theorem Nimble.ite {c : Prop} [Decidable c] (hp : p.Nimble C) (hp' : p'.Nimble C) :
    (if c then p else p').Nimble C := by
  split
  · exact hp
  · exact hp'

theorem Nimble.unstuck (h : p.Nimble C) (s : σ) : p.Unstuck C s := by
  induction p generalizing s with
  | ret a => trivial
  | act f k ih => exact fun s₁ _ ↦ ⟨h.1, fun s₂ _ _ ↦ ih s₁ (h.2 s₁) s₂⟩
  | ask q k ih => exact ⟨fun _ _ ↦ h.1, fun z ↦ ih z (h.2 z) s⟩

end Nimble

/-! ## Programs that are not stuck -/

section Unstuck

theorem Unstuck.rely [IsTrans σ C.rely] (h : p.Unstuck C s) (hR : C.rely s s') :
    p.Unstuck C s' := by
  induction p with
  | ret a => trivial
  | act f k ih => exact fun s₁ h₁ ↦ h s₁ (trans_of C.rely hR h₁)
  | ask q k ih => exact ⟨fun s₁ h₁ ↦ h.1 s₁ (trans_of C.rely hR h₁), fun z ↦ ih z (h.2 z)⟩

theorem Unstuck.step (h : p.Unstuck C s) (hR : C.rely s s) (hA : C.condition s s')
    (hstep : Step p s p' s') : p'.Unstuck C s' := by
  cases hstep with
  | act hf => exact (h s hR).2 s' hf hA
  | ask z => exact h.2 z

theorem Unstuck.of_rely [Settles C.rely] (h : ∀ s', C.rely s s' → p.Unstuck C s') :
    p.Unstuck C s := by
  induction p with
  | ret a => trivial
  | act f k ih => exact fun s' hs' ↦ h s' hs' s' (Settles.settles hs')
  | ask q k ih =>
    exact ⟨fun s' hs' ↦ (h s' hs').1 s' (Settles.settles hs'),
      fun z ↦ ih z fun s' hs' ↦ (h s' hs').2 z⟩

theorem Unstuck.bind [Settles C.rely] {g : α → Prog κ σ β} (h : p.Unstuck C s)
    (hsat : (p.guard C.condition).Sat C.rely C.guarantee (fun a s ↦ (g a).Unstuck C s) s) :
    (p >>= g).Unstuck C s := by
  induction p generalizing s with
  | ret a => exact .of_rely hsat
  | act f k ih =>
    intro s₁ h₁
    obtain ⟨henabled, hrest⟩ := h s₁ h₁
    refine ⟨henabled, fun s₂ hf hA ↦ ih s₁ (hrest s₂ hf hA) ?_⟩
    exact (hsat s₁ h₁ s₂ (guardStatement_eq_some.mpr ⟨hf, hA⟩)).2
  | ask q k ih => exact ⟨h.1, fun z ↦ ih z (h.2 z) (hsat z)⟩

end Unstuck

/-! ## Triples under a contract -/

/-- The program keeps to the contract from this state on. -/
structure SafeAt (C : Contract κ σ) (p : Prog κ σ α) (Q : α → σ → Prop) (s : σ) : Prop where
  /-- It keeps the guarantee and leads to the postcondition. -/
  sat : (p.guard C.condition).Sat C.rely C.guarantee Q s
  /-- It does not get stuck. -/
  unstuck : p.Unstuck C s

/-- A triple under a contract. -/
def Safe (C : Contract κ σ) (P : σ → Prop) (p : Prog κ σ α) (Q : α → σ → Prop) : Prop :=
  ∀ s, P s → p.SafeAt C Q s

section Safe

theorem SafeAt.rely [IsTrans σ C.rely] (h : p.SafeAt C Q s) (hR : C.rely s s') : p.SafeAt C Q s' :=
  ⟨h.sat.rely hR, h.unstuck.rely hR⟩

/-- A statement that meets the condition keeps the guarantee, unless it is a question, and leaves a
program that keeps to the contract. -/
theorem SafeAt.step (h : p.SafeAt C Q s) (hR : C.rely s s) (hA : C.condition s s')
    (hstep : Step p s p' s') : (C.guarantee s s' ∨ s' = s) ∧ p'.SafeAt C Q s' := by
  obtain ⟨hG, hrest⟩ := h.sat.step_of hR (hstep.guard hA)
  exact ⟨hG, hrest, h.unstuck.step hR hA hstep⟩

theorem SafeAt.bind [Settles C.rely] {g : α → Prog κ σ β} {Q : β → σ → Prop}
    (h : p.SafeAt C (fun a s ↦ (g a).SafeAt C Q s) s) : (p >>= g).SafeAt C Q s := by
  constructor
  · rw [guard_bind]
    exact (h.sat.mono (fun _ _ h ↦ h) fun _ _ h ↦ h.sat).bind
  · exact h.unstuck.bind (h.sat.mono (fun _ _ h ↦ h) fun _ _ h ↦ h.unstuck)

theorem Safe.bind [Settles C.rely] {M : α → σ → Prop} {g : α → Prog κ σ β} {Q : β → σ → Prop}
    (hp : Safe C P p M) (hg : ∀ a, Safe C (M a) (g a) Q) : Safe C P (p >>= g) Q := by
  intro s hs
  have hsafe := hp s hs
  exact SafeAt.bind ⟨hsafe.sat.mono (fun _ _ h ↦ h) fun a s' hs' ↦ hg a s' hs', hsafe.unstuck⟩

/-- A triple of statements that cannot get stuck needs no contract. -/
theorem Triple.safe (h : Triple C.rely C.guarantee P p Q) (hnimble : p.Nimble C) : Safe C P p Q :=
  fun s hs ↦ ⟨h.guard s hs, hnimble.unstuck s⟩

theorem Safe.pre {A : σ → Prop} (h : Safe C A p Q) (hP : ∀ s, P s → A s) : Safe C P p Q :=
  fun s hs ↦ h s (hP s hs)

theorem Safe.ite {c : Prop} [Decidable c] (hp : c → Safe C P p Q) (hp' : ¬ c → Safe C P p' Q) :
    Safe C P (if c then p else p') Q := by
  split
  · exact hp ‹_›
  · exact hp' ‹_›

theorem Safe.await {enabled : σ → Bool} {f : σ → σ} {Q : σ → Prop} (hP : Stable C.rely P)
    (hQ : Stable C.rely Q) (hidle : ∀ s, C.idle s → enabled s = true)
    (hG : ∀ s, P s → enabled s = true → C.guarantee s (f s))
    (h : ∀ s, P s → enabled s = true → C.condition s (f s) → Q (f s)) :
    Safe C P (Prog.await enabled f : Prog κ σ Unit) fun _ ↦ Q := by
  refine fun s hs ↦ ⟨fun s₁ h₁ s₂ h₂ ↦ ?_, (Nimble.await hidle).unstuck s⟩
  obtain ⟨hf, hA⟩ := guardStatement_eq_some.mp h₂
  have hs₁ := hP s s₁ h₁ hs
  obtain ⟨henabled, rfl⟩ : enabled s₁ = true ∧ f s₁ = s₂ := by
    simpa only [Option.ite_none_right_eq_some, Option.some.injEq] using hf
  refine ⟨hG s₁ hs₁ henabled, fun s₃ h₃ ↦ hQ (f s₁) s₃ h₃ ?_⟩
  exact h s₁ hs₁ henabled hA

end Safe

end Prog

end DistributorMerger
