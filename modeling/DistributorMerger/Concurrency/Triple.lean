import DistributorMerger.Concurrency.Prog

/-!
# Rely–guarantee triples

`Triple R G P p Q` says that `p`, started in a state that satisfies `P` and interfered with by steps
in `R`, makes only steps in `G`, and ends, if it ends, in a state that satisfies `Q`. Pre- and
postconditions are used with the rules below when they are *stable*: steps in `R` preserve them.

The rules for single statements ask for stability once, at the statement; the rule of sequencing
then composes triples as it does without interference.

A program each of whose statements keeps `G` wherever it is executed needs no assertions at all:
this is `Within`.
-/

namespace DistributorMerger

namespace Prog

variable {κ σ α β : Type}

/-- Steps in `R` preserve `P`. -/
def Stable (R : σ → σ → Prop) (P : σ → Prop) : Prop := ∀ s s', R s s' → P s → P s'

theorem stable_true {R : σ → σ → Prop} : Stable R fun _ ↦ True := fun _ _ _ h ↦ h

/-- A program with its rely, guarantee, pre- and postcondition. -/
def Triple (R G : σ → σ → Prop) (P : σ → Prop) (p : Prog κ σ α) (Q : α → σ → Prop) : Prop :=
  ∀ s, P s → p.Sat R G Q s

section Rules

variable {R G : σ → σ → Prop} {P P' : σ → Prop} {Q Q' : α → σ → Prop} {p : Prog κ σ α}

theorem Triple.weaken (h : Triple R G P' p Q') (hP : ∀ s, P s → P' s)
    (hQ : ∀ a s, Q' a s → Q a s) : Triple R G P p Q := fun s hs ↦
  (h s (hP s hs)).mono (fun _ _ h ↦ h) hQ

theorem Triple.pre {A : σ → Prop} (h : Triple R G A p Q) (hP : ∀ s, P s → A s) : Triple R G P p Q :=
  h.weaken hP fun _ _ h ↦ h

theorem Triple.bind [Settles R] {M : α → σ → Prop} {g : α → Prog κ σ β} {Q : β → σ → Prop}
    (hp : Triple R G P p M) (hg : ∀ a, Triple R G (M a) (g a) Q) :
    Triple R G P (p >>= g) Q := fun s hs ↦
  ((hp s hs).mono (fun _ _ h ↦ h) fun a s' hs' ↦ hg a s' hs').bind

theorem Triple.pure {a : α} (hP : Stable R P) (hQ : ∀ s, P s → Q a s) :
    Triple R G P (pure a : Prog κ σ α) Q := fun s hs s' hs' ↦ hQ s' (hP s s' hs' hs)

theorem Triple.read [Std.Refl G] {g : σ → β} {Q : β → σ → Prop} (hP : Stable R P)
    (hQ : ∀ a, Stable R (Q a)) (h : ∀ s, P s → Q (g s) s) :
    Triple R G P (Prog.read g : Prog κ σ β) Q := by
  intro s hs s₁ h₁ s₂ h₂
  obtain rfl := Option.some.inj h₂
  exact ⟨refl_of G s₁, fun s₃ h₃ ↦ hQ _ s₁ s₃ h₃ (h s₁ (hP s s₁ h₁ hs))⟩

theorem Triple.read_at [Std.Refl G] [Settles R] {g : σ → β} {Q : β → σ → Prop} (hP : Stable R P)
    (hQ : ∀ a, Stable R (Q a)) (h : ∀ s, R s s → P s → Q (g s) s) :
    Triple R G P (Prog.read g : Prog κ σ β) Q := by
  intro s hs s₁ h₁ s₂ h₂
  obtain rfl := Option.some.inj h₂
  refine ⟨refl_of G s₁, fun s₃ h₃ ↦ hQ _ s₁ s₃ h₃ ?_⟩
  exact h s₁ (Settles.settles h₁) (hP s s₁ h₁ hs)

theorem Triple.read_any [Std.Refl G] (g : σ → β) (hP : Stable R P) :
    Triple R G P (Prog.read g : Prog κ σ β) fun _ ↦ P := .read hP (fun _ ↦ hP) fun _ hs ↦ hs

/-- A value that the precondition determines can be put in place of the statement that reads it. -/
theorem Triple.read_bind [Std.Refl G] {g : σ → β} {k : β → Prog κ σ α} (v : β)
    (hP : Stable R P) (hv : ∀ s, P s → g s = v) (h : Triple R G P (k v) Q) :
    Triple R G P (Prog.read g >>= k) Q := by
  intro s hs s₁ h₁ s₂ h₂
  obtain rfl := Option.some.inj h₂
  have hs₁ := hP s s₁ h₁ hs
  refine ⟨refl_of G s₁, (?_ : (k (g s₁)).Sat R G Q s₁)⟩
  rw [hv s₁ hs₁]
  exact h s₁ hs₁

theorem Triple.update {f : σ → σ} {g : σ → β} {Q : β → σ → Prop} (hP : Stable R P)
    (hQ : ∀ a, Stable R (Q a)) (hG : ∀ s, P s → G s (f s)) (h : ∀ s, P s → Q (g s) (f s)) :
    Triple R G P (Prog.update f g : Prog κ σ β) Q := by
  intro s hs s₁ h₁ s₂ h₂
  obtain rfl := Option.some.inj h₂
  have hs₁ := hP s s₁ h₁ hs
  exact ⟨hG s₁ hs₁, fun s₃ h₃ ↦ hQ _ (f s₁) s₃ h₃ (h s₁ hs₁)⟩

theorem Triple.modify {f : σ → σ} {Q : σ → Prop} (hP : Stable R P) (hQ : Stable R Q)
    (hG : ∀ s, P s → G s (f s)) (h : ∀ s, P s → Q (f s)) :
    Triple R G P (Prog.modify f : Prog κ σ Unit) fun _ ↦ Q := by
  intro s hs s₁ h₁ s₂ h₂
  obtain rfl := Option.some.inj h₂
  have hs₁ := hP s s₁ h₁ hs
  exact ⟨hG s₁ hs₁, fun s₃ h₃ ↦ hQ (f s₁) s₃ h₃ (h s₁ hs₁)⟩

theorem Triple.modify_at [Settles R] {f : σ → σ} {Q : σ → Prop} (hP : Stable R P)
    (hQ : Stable R Q) (hG : ∀ s, R s s → P s → G s (f s)) (h : ∀ s, R s s → P s → Q (f s)) :
    Triple R G P (Prog.modify f : Prog κ σ Unit) fun _ ↦ Q := by
  intro s hs s₁ h₁ s₂ h₂
  obtain rfl := Option.some.inj h₂
  have hs₁ := hP s s₁ h₁ hs
  have hR := Settles.settles h₁
  exact ⟨hG s₁ hR hs₁, fun s₃ h₃ ↦ hQ (f s₁) s₃ h₃ (h s₁ hR hs₁)⟩

theorem Triple.await {enabled : σ → Bool} {f : σ → σ} {Q : σ → Prop} (hP : Stable R P)
    (hQ : Stable R Q) (hG : ∀ s, P s → enabled s = true → G s (f s))
    (h : ∀ s, P s → enabled s = true → Q (f s)) :
    Triple R G P (Prog.await enabled f : Prog κ σ Unit) fun _ ↦ Q := by
  intro s hs s₁ h₁ s₂ h₂
  have hs₁ := hP s s₁ h₁ hs
  obtain ⟨henabled, rfl⟩ : enabled s₁ = true ∧ f s₁ = s₂ := by
    simpa only [Option.ite_none_right_eq_some, Option.some.injEq] using h₂
  exact ⟨hG s₁ hs₁ henabled, fun s₃ h₃ ↦ hQ (f s₁) s₃ h₃ (h s₁ hs₁ henabled)⟩

theorem Triple.stuck {Q : Unit → σ → Prop} : Triple R G P (Prog.stuck : Prog κ σ Unit) Q :=
  fun _ _ _ _ _ h₂ ↦ nomatch h₂

theorem Triple.query {q : κ} {Q : ℤ → σ → Prop} (hP : Stable R P) (h : ∀ z s, P s → Q z s) :
    Triple R G P (Prog.query q : Prog κ σ ℤ) Q := fun s hs z s' hs' ↦ h z s' (hP s s' hs' hs)

theorem Triple.ite {c : Prop} [Decidable c] {p' : Prog κ σ α} (hp : c → Triple R G P p Q)
    (hp' : ¬ c → Triple R G P p' Q) : Triple R G P (if c then p else p') Q := by
  split
  · exact hp ‹_›
  · exact hp' ‹_›

/-- A triple bounds what the program comes to when it is not interrupted. -/
theorem Sat.exec [Std.Refl R] {answer : κ → ℤ} {a : α} {s s' : σ} (h : p.Sat R G Q s)
    (hexec : p.exec answer s = some (a, s')) : Q a s' := by
  refine exec_induction (motive := fun p s p' s' ↦ p.Sat R G Q s → p'.Sat R G Q s')
    (fun _ _ h ↦ h) (fun hstep hrest h ↦ hrest (h.step hstep).2) p hexec h |>.ret

end Rules

/-! ## Programs within a guarantee -/

/-- Every statement of the program keeps `G`, in whatever state it is executed. -/
def Within (G : σ → σ → Prop) : Prog κ σ α → Prop
  | ret _ => True
  | act f k => (∀ s s', f s = some s' → G s s') ∧ ∀ s, Within G (k s)
  | ask _ k => ∀ z, Within G (k z)

section Within

variable {R G : σ → σ → Prop} {p p' : Prog κ σ α}

theorem Within.sat (h : p.Within G) (s : σ) : p.Sat R G (fun _ _ ↦ True) s := by
  induction p generalizing s with
  | ret a => exact fun _ _ ↦ trivial
  | act f k ih => exact fun s₁ _ s₂ h₂ ↦ ⟨h.1 s₁ s₂ h₂, ih s₁ (h.2 s₁) s₂⟩
  | ask q k ih => exact fun z ↦ ih z (h z) s

/-- **The frame rule.** What the statements of a program preserve, and interference too, holds
throughout the program. -/
theorem Triple.frame {H : σ → σ → Prop} {P : σ → Prop} (h : p.Within G) (hP : Stable R P)
    (hG : ∀ s s', G s s' → P s → P s') (hH : ∀ s s', G s s' → P s → H s s') :
    Triple R H P p fun _ ↦ P := by
  intro s hs
  induction p generalizing s with
  | ret a => exact fun s' hs' ↦ hP s s' hs' hs
  | act f k ih =>
    intro s₁ h₁ s₂ h₂
    have hstep := h.1 s₁ s₂ h₂
    have hs₁ := hP s s₁ h₁ hs
    exact ⟨hH s₁ s₂ hstep hs₁, ih s₁ (h.2 s₁) s₂ (hG s₁ s₂ hstep hs₁)⟩
  | ask q k ih => exact fun z ↦ ih z (h z) s hs

/-- The whole of an uninterrupted execution is within a guarantee that can be repeated. -/
theorem Within.exec [Std.Refl G] [IsTrans σ G] {answer : κ → ℤ} {a : α} {s s' : σ}
    (h : p.Within G) (hexec : p.exec answer s = some (a, s')) : G s s' := by
  have hkeep := Triple.frame (R := Eq) (H := fun _ _ ↦ True) (P := G s) h
    (fun _ _ heq h ↦ heq ▸ h) (fun _ _ hG h ↦ trans_of G h hG) fun _ _ _ _ ↦ trivial
  exact (hkeep s (refl_of G s)).exec hexec

theorem Within.mono {G' : σ → σ → Prop} (h : p.Within G) (hG : ∀ s s', G s s' → G' s s') :
    p.Within G' := by
  induction p with
  | ret a => trivial
  | act f k ih => exact ⟨fun s s' hs ↦ hG s s' (h.1 s s' hs), fun s ↦ ih s (h.2 s)⟩
  | ask q k ih => exact fun z ↦ ih z (h z)

theorem Within.zoom {τ : Type} {get : τ → σ} {set : τ → σ → τ} {G' : τ → τ → Prop}
    (h : p.Within G) (hG : ∀ s t, G (get s) t → G' s (set s t)) :
    (p.zoom get set).Within G' := by
  induction p with
  | ret a => trivial
  | act f k ih =>
    refine ⟨fun s s' hs ↦ ?_, fun s ↦ ih (get s) (h.2 (get s))⟩
    obtain ⟨t, ht, rfl⟩ := Option.map_eq_some_iff.mp hs
    exact hG s t (h.1 (get s) t ht)
  | ask q k ih => exact fun z ↦ ih z (h z)

theorem Within.bind {g : α → Prog κ σ β} (hp : p.Within G) (hg : ∀ a, (g a).Within G) :
    (p >>= g).Within G := by
  induction p with
  | ret a => exact hg a
  | act f k ih => exact ⟨hp.1, fun s ↦ ih s (hp.2 s)⟩
  | ask q k ih => exact fun z ↦ ih z (hp z)

theorem Within.next [Std.Refl G] {z : ℤ} {s s' : σ} (h : p.Within G)
    (hnext : p.next z s = some (p', s')) : G s s' ∧ p'.Within G := by
  cases p with
  | ret a => cases hnext
  | act f k =>
    obtain ⟨s₁, hf, heq⟩ := Option.map_eq_some_iff.mp hnext
    cases heq
    exact ⟨h.1 s s' hf, h.2 s⟩
  | ask q k =>
    cases hnext
    exact ⟨refl_of G s, h z⟩

theorem Within.pure (a : α) : (pure a : Prog κ σ α).Within G := trivial

theorem Within.read [Std.Refl G] (g : σ → β) : (Prog.read g : Prog κ σ β).Within G :=
  ⟨fun s _ h ↦ Option.some.inj h ▸ refl_of G s, fun _ ↦ trivial⟩

theorem Within.update {f : σ → σ} (g : σ → β) (h : ∀ s, G s (f s)) :
    (Prog.update f g : Prog κ σ β).Within G :=
  ⟨fun s _ hs ↦ Option.some.inj hs ▸ h s, fun _ ↦ trivial⟩

theorem Within.modify {f : σ → σ} (h : ∀ s, G s (f s)) :
    (Prog.modify f : Prog κ σ Unit).Within G :=
  ⟨fun s _ hs ↦ Option.some.inj hs ▸ h s, fun _ ↦ trivial⟩

theorem Within.await {enabled : σ → Bool} {f : σ → σ} (h : ∀ s, enabled s = true → G s (f s)) :
    (Prog.await enabled f : Prog κ σ Unit).Within G := by
  refine ⟨fun s s' hs ↦ ?_, fun _ ↦ trivial⟩
  obtain ⟨henabled, rfl⟩ : enabled s = true ∧ f s = s' := by
    simpa only [Option.ite_none_right_eq_some, Option.some.injEq] using hs
  exact h s henabled

theorem Within.stuck : (Prog.stuck : Prog κ σ Unit).Within G :=
  ⟨fun _ _ h ↦ (nomatch h), fun _ ↦ trivial⟩

theorem Within.query (q : κ) : (Prog.query q : Prog κ σ ℤ).Within G := fun _ ↦ trivial

theorem Within.ite {c : Prop} [Decidable c] (hp : p.Within G) (hp' : p'.Within G) :
    (if c then p else p').Within G := by
  split
  · exact hp
  · exact hp'

end Within

/-! ## Programs that end with a change -/

/-- The only statement of the program that may change `g` is one after which the program returns
`a`. -/
def ChangesLast (g : σ → β) (a : α) : Prog κ σ α → Prop
  | ret _ => True
  | act f k => (∀ s s', f s = some s' → g s' = g s ∨ k s = ret a) ∧ ∀ s, ChangesLast g a (k s)
  | ask _ k => ∀ z, ChangesLast g a (k z)

section ChangesLast

variable {γ : Type} {g : σ → γ} {a : α} {p p' : Prog κ σ α}

/-- Statements that do not change `g` may come first. -/
theorem ChangesLast.bind {b : β} {f : α → Prog κ σ β} (hp : p.Within fun s s' ↦ g s' = g s)
    (hf : ∀ a, (f a).ChangesLast g b) : (p >>= f).ChangesLast g b := by
  induction p with
  | ret a => exact hf a
  | act f k ih => exact ⟨fun s s' hs ↦ .inl (hp.1 s s' hs), fun s ↦ ih s (hp.2 s)⟩
  | ask q k ih => exact fun z ↦ ih z (hp z)

theorem ChangesLast.modify (f : σ → σ) : (Prog.modify f : Prog κ σ Unit).ChangesLast g () :=
  ⟨fun _ _ _ ↦ .inr rfl, fun _ ↦ trivial⟩

theorem ChangesLast.modify_return (f : σ → σ) (a : α) :
    (do Prog.modify f; pure a : Prog κ σ α).ChangesLast g a :=
  ⟨fun _ _ _ ↦ .inr rfl, fun _ ↦ trivial⟩

theorem ChangesLast.next {z : ℤ} {s s' : σ} (h : p.ChangesLast g a)
    (hnext : p.next z s = some (p', s')) : (g s' = g s ∨ p' = ret a) ∧ p'.ChangesLast g a := by
  cases p with
  | ret a => cases hnext
  | act f k =>
    obtain ⟨s₁, hf, heq⟩ := Option.map_eq_some_iff.mp hnext
    cases heq
    exact ⟨h.1 s s' hf, h.2 s⟩
  | ask q k =>
    cases hnext
    exact ⟨.inl rfl, h z⟩

end ChangesLast

/-! ## Pools of programs -/

section Pool

variable {ι : Type} [DecidableEq ι]

/-- One statement of one of several programs. -/
inductive PoolStep : (ι → Prog κ σ Unit) → σ → (ι → Prog κ σ Unit) → σ → Prop
  /-- Program `i` makes a step. -/
  | step {pool : ι → Prog κ σ Unit} {s s' : σ} (i : ι) {p : Prog κ σ Unit}
      (h : Step (pool i) s p s') : PoolStep pool s (Function.update pool i p) s'

/-- Some statements of several programs, in any order. -/
inductive PoolReaches (pool : ι → Prog κ σ Unit) (s : σ) : (ι → Prog κ σ Unit) → σ → Prop
  /-- Nothing has happened yet. -/
  | refl : PoolReaches pool s pool s
  /-- One more statement. -/
  | tail {pool' pool'' : ι → Prog κ σ Unit} {s' s'' : σ} (h : PoolReaches pool s pool' s')
      (hstep : PoolStep pool' s' pool'' s'') : PoolReaches pool s pool'' s''

/-- Some statements of several programs in a given order, each with the answer it is given. -/
def runPool : (ι → Prog κ σ Unit) → σ → List (ι × ℤ) → Option ((ι → Prog κ σ Unit) × σ)
  | pool, s, [] => some (pool, s)
  | pool, s, (i, z) :: steps => ((pool i).next z s).bind fun x ↦
      runPool (Function.update pool i x.1) x.2 steps

variable {R G : ι → σ → σ → Prop} {Q : ι → Unit → σ → Prop} {I : σ → Prop}
  {pool pool' pool'' : ι → Prog κ σ Unit} {s s' s'' : σ}

theorem PoolReaches.trans (h : PoolReaches pool s pool' s')
    (h' : PoolReaches pool' s' pool'' s'') : PoolReaches pool s pool'' s'' := by
  induction h' with
  | refl => exact h
  | tail _ hstep ih => exact .tail ih hstep

theorem PoolReaches.of_runPool {steps : List (ι × ℤ)}
    (h : runPool pool s steps = some (pool', s')) : PoolReaches pool s pool' s' := by
  induction steps generalizing pool s with
  | nil =>
    cases h
    exact .refl
  | cons step steps ih =>
    obtain ⟨⟨p, s₁⟩, hnext, hrest⟩ := Option.bind_eq_some_iff.mp h
    exact (PoolReaches.refl.tail (.step step.1 (step_of_next hnext))).trans (ih hrest)

/-- A program may run to its end while the others wait. -/
theorem PoolReaches.exec {answer : κ → ℤ} (i : ι)
    (h : (pool i).exec answer s = some ((), s')) :
    PoolReaches pool s (Function.update pool i (ret ())) s' := by
  refine exec_induction (motive := fun p s p' s' ↦ ∀ pool : ι → Prog κ σ Unit, pool i = p →
    PoolReaches pool s (Function.update pool i p') s') ?_ ?_ _ h pool rfl
  · rintro p s pool rfl
    rw [Function.update_eq_self]
    exact .refl
  · intro p s p₁ s₁ p₂ s₂ hstep hrest pool hp
    have hstep' : PoolStep pool s (Function.update pool i p₁) s₁ := .step i (hp ▸ hstep)
    have hrest' := hrest (Function.update pool i p₁) (Function.update_self ..)
    rw [Function.update_idem] at hrest'
    exact (PoolReaches.refl.tail hstep').trans hrest'

/-- **Soundness of rely–guarantee reasoning.** When what each program guarantees is within what the
others rely on, all of them stay good in every interleaving, and what every guarantee preserves is
invariant. -/
theorem PoolReaches.sat [∀ i, Std.Refl (R i)] [∀ i, IsTrans σ (R i)]
    (hcompat : ∀ i j, i ≠ j → ∀ s s', G i s s' → R j s s')
    (hI : ∀ i s s', G i s s' → I s → I s') (hstart : ∀ i, (pool i).Sat (R i) (G i) (Q i) s)
    (hIstart : I s) (h : PoolReaches pool s pool' s') :
    (∀ i, (pool' i).Sat (R i) (G i) (Q i) s') ∧ I s' := by
  induction h with
  | refl => exact ⟨hstart, hIstart⟩
  | tail _ hstep ih =>
    obtain ⟨hsat, hinv⟩ := ih
    obtain ⟨i, hstep⟩ := hstep
    obtain ⟨hG, hrest⟩ := (hsat i).step hstep
    rcases hG with hG | rfl
    · refine ⟨fun j ↦ ?_, hI i _ _ hG hinv⟩
      by_cases hji : j = i
      · subst hji
        rw [Function.update_self]
        exact hrest
      · rw [Function.update_of_ne hji]
        exact (hsat j).rely (hcompat i j (Ne.symm hji) _ _ hG)
    · refine ⟨fun j ↦ ?_, hinv⟩
      by_cases hji : j = i
      · subst hji
        rw [Function.update_self]
        exact hrest
      · rw [Function.update_of_ne hji]
        exact hsat j

end Pool

end Prog

end DistributorMerger
