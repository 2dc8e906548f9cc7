import DistributorMerger.Concurrency.Triple

/-!
# Rely and guarantee under a condition

A program acts on a part of a larger state: the rest may record what the other programs are doing.
`SatIf` reads the program as `Sat` does, on the larger state, but says something only of executions
each of whose statements is executed when a condition holds. The condition may depend on what the
program has still to execute, and so on the statement that comes next.
-/

namespace DistributorMerger

/-- A part of a state. -/
structure Part (τ σ : Type) where
  /-- Look at the part. -/
  get : τ → σ
  /-- Replace the part. -/
  set : τ → σ → τ
  /-- A part that is replaced by itself leaves the state as it is. -/
  set_get : ∀ s, set s (get s) = s

namespace Prog

variable {κ σ τ α β : Type} (V : Part τ σ)

/-- From state `s` on, under interference within `R` and as long as `C` holds whenever a statement
is executed, the statements of the program are within `G` and its result satisfies `Q`. -/
def SatIf (C : Prog κ σ α → τ → Prop) (R G : τ → τ → Prop) :
    Prog κ σ α → (α → τ → Prop) → τ → Prop
  | ret a, Q, s => ∀ s', R s s' → Q a s'
  | act f k, Q, s => ∀ s', R s s' → C (act f k) s' → ∀ t, f (V.get s') = some t →
      G s' (V.set s' t) ∧ SatIf C R G (k (V.get s')) Q (V.set s' t)
  | ask _ k, Q, s => ∀ z, SatIf C R G (k z) Q s

section SatIf

variable {V} {C : Prog κ σ α → τ → Prop} {R G : τ → τ → Prop} {Q : α → τ → Prop}
  {p p' : Prog κ σ α} {s s' : τ}

theorem SatIf.rely [IsTrans τ R] (h : p.SatIf V C R G Q s) (hR : R s s') :
    p.SatIf V C R G Q s' := by
  induction p with
  | ret a => exact fun s'' h'' ↦ h s'' (trans_of R hR h'')
  | act f k ih => exact fun s₁ h₁ ↦ h s₁ (trans_of R hR h₁)
  | ask q k ih => exact fun z ↦ ih z (h z)

/-- A statement keeps the guarantee, unless it is a question, and leaves a good program. -/
theorem SatIf.next {z : ℤ} {t : σ} (h : p.SatIf V C R G Q s) (hR : R s s) (hC : C p s)
    (hnext : p.next z (V.get s) = some (p', t)) :
    (G s (V.set s t) ∨ V.set s t = s) ∧ p'.SatIf V C R G Q (V.set s t) := by
  cases p with
  | ret a => cases hnext
  | act f k =>
    obtain ⟨t', hf, heq⟩ := Option.map_eq_some_iff.mp hnext
    cases heq
    obtain ⟨hG, hrest⟩ := h s hR hC t hf
    exact ⟨.inl hG, hrest⟩
  | ask q k =>
    cases hnext
    rw [V.set_get]
    exact ⟨.inr rfl, h z⟩

theorem SatIf.of_rely [Settles R] (h : ∀ s', R s s' → p.SatIf V C R G Q s') :
    p.SatIf V C R G Q s := by
  induction p with
  | ret a => exact fun s' hs' ↦ h s' hs' s' (Settles.settles hs')
  | act f k ih => exact fun s' hs' ↦ h s' hs' s' (Settles.settles hs')
  | ask q k ih => exact fun z ↦ ih z fun s' hs' ↦ h s' hs' z

theorem SatIf.bind [Settles R] {g : α → Prog κ σ β} {C : Prog κ σ β → τ → Prop}
    {Q : β → τ → Prop}
    (h : p.SatIf V (fun q ↦ C (q >>= g)) R G (fun a s ↦ (g a).SatIf V C R G Q s) s) :
    (p >>= g).SatIf V C R G Q s := by
  induction p generalizing s with
  | ret a => exact .of_rely h
  | act f k ih =>
    intro s₁ h₁ hC t ht
    obtain ⟨hG, hrest⟩ := h s₁ h₁ hC t ht
    exact ⟨hG, ih _ hrest⟩
  | ask q k ih => exact fun z ↦ ih z (h z)

theorem SatIf.mono {Q' : α → τ → Prop} (h : p.SatIf V C R G Q s) (hQ : ∀ a s, Q a s → Q' a s) :
    p.SatIf V C R G Q' s := by
  induction p generalizing s with
  | ret a => exact fun s' hs' ↦ hQ a s' (h s' hs')
  | act f k ih =>
    intro s₁ h₁ hC t ht
    obtain ⟨hG, hrest⟩ := h s₁ h₁ hC t ht
    exact ⟨hG, ih _ hrest⟩
  | ask q k ih => exact fun z ↦ ih z (h z)

end SatIf

/-- A program over a part of the state with its condition, rely, guarantee, pre- and
postcondition. -/
def TripleIf (C : Prog κ σ α → τ → Prop) (R G : τ → τ → Prop) (P : τ → Prop) (p : Prog κ σ α)
    (Q : α → τ → Prop) : Prop := ∀ s, P s → p.SatIf V C R G Q s

section Rules

variable {V} {C : Prog κ σ α → τ → Prop} {R G : τ → τ → Prop} {P : τ → Prop} {Q : α → τ → Prop}
  {p p' : Prog κ σ α}

theorem TripleIf.weaken {A : τ → Prop} {Q' : α → τ → Prop} (h : TripleIf V C R G A p Q')
    (hP : ∀ s, P s → A s) (hQ : ∀ a s, Q' a s → Q a s) : TripleIf V C R G P p Q := fun s hs ↦
  (h s (hP s hs)).mono hQ

theorem TripleIf.bind [Settles R] {M : α → τ → Prop} {g : α → Prog κ σ β}
    {C : Prog κ σ β → τ → Prop} {Q : β → τ → Prop}
    (hp : TripleIf V (fun q ↦ C (q >>= g)) R G P p M) (hg : ∀ a, TripleIf V C R G (M a) (g a) Q) :
    TripleIf V C R G P (p >>= g) Q := fun s hs ↦
  ((hp s hs).mono fun a s' hs' ↦ hg a s' hs').bind

theorem TripleIf.pure {a : α} (hP : Stable R P) (hQ : ∀ s, P s → Q a s) :
    TripleIf V C R G P (pure a : Prog κ σ α) Q := fun s hs s' hs' ↦ hQ s' (hP s s' hs' hs)

theorem TripleIf.read {g : σ → α} (hP : Stable R P) (hQ : ∀ a, Stable R (Q a))
    (hG : ∀ s, G s s) (h : ∀ s, R s s → P s → C (Prog.read g) s → Q (g (V.get s)) s) [Settles R] :
    TripleIf V C R G P (Prog.read g : Prog κ σ α) Q := by
  intro s hs s₁ h₁ hC t ht
  obtain rfl := Option.some.inj ht
  rw [V.set_get]
  refine ⟨hG s₁, fun s₂ h₂ ↦ hQ _ s₁ s₂ h₂ ?_⟩
  exact h s₁ (Settles.settles h₁) (hP s s₁ h₁ hs) hC

theorem TripleIf.stuck {C : Prog κ σ Unit → τ → Prop} {Q : Unit → τ → Prop} :
    TripleIf V C R G P (Prog.stuck : Prog κ σ Unit) Q := nofun

theorem TripleIf.query {q : κ} {C : Prog κ σ ℤ → τ → Prop} {Q : ℤ → τ → Prop} (hP : Stable R P)
    (h : ∀ z s, P s → Q z s) : TripleIf V C R G P (Prog.query q : Prog κ σ ℤ) Q :=
  fun s hs z s' hs' ↦ h z s' (hP s s' hs' hs)

theorem TripleIf.ite {c : Prop} [Decidable c] (hp : c → TripleIf V C R G P p Q)
    (hp' : ¬ c → TripleIf V C R G P p' Q) : TripleIf V C R G P (if c then p else p') Q := by
  split
  · exact hp ‹_›
  · exact hp' ‹_›

/-- **The frame rule.** What the statements of a program preserve, and interference too, holds
throughout the program. -/
theorem TripleIf.frame {H : σ → σ → Prop} (h : p.Within H) (hP : Stable R P)
    (hH : ∀ s t, P s → H (V.get s) t → P (V.set s t) ∧ G s (V.set s t)) :
    TripleIf V C R G P p fun _ ↦ P := by
  intro s hs
  induction p generalizing s with
  | ret a => exact fun s' hs' ↦ hP s s' hs' hs
  | act f k ih =>
    intro s₁ h₁ _ t ht
    obtain ⟨hP₁, hG⟩ := hH s₁ t (hP s s₁ h₁ hs) (h.1 _ _ ht)
    exact ⟨hG, ih _ (h.2 _) _ hP₁⟩
  | ask q k ih => exact fun z ↦ ih z (h z) s hs

/-- The last statement of a program may break what the statements before it preserve. -/
theorem TripleIf.modify {f : σ → σ} {C : Prog κ σ Unit → τ → Prop} {Q : Unit → τ → Prop}
    (hP : Stable R P) (hG : ∀ s, P s → G s (V.set s (f (V.get s)))) (hQ : ∀ s, Q () s) :
    TripleIf V C R G P (Prog.modify f : Prog κ σ Unit) Q := by
  intro s hs s₁ h₁ _ t ht
  obtain rfl := Option.some.inj ht
  exact ⟨hG s₁ (hP s s₁ h₁ hs), fun s₂ _ ↦ hQ s₂⟩

end Rules

end Prog

end DistributorMerger
