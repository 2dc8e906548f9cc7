import Mathlib

/-!
# Programs of indivisible statements

A program over a shared state is a tree of statements. A statement either acts on the state in one
indivisible step, possibly waiting until the step is enabled, or asks the environment a question
and goes on with whatever integer comes back: the result of a system call, a clock reading.

The same tree is read in three ways. `Step` executes one statement, so that statements of several
programs interleave. `exec` executes a program without interruption, with the answers given
beforehand. `Sat` is the rely–guarantee reading: from the present state on, whatever the other
programs do within the rely `R`, each statement keeps the guarantee `G`, and when the program
returns, its postcondition holds.
-/

namespace DistributorMerger

/-- A program with questions in `κ`, a shared state in `σ` and a result in `α`. -/
inductive Prog (κ σ α : Type) where
  /-- Return a result. -/
  | ret (a : α)
  /-- Change the state by `f` in one step, once `f` is defined, and go on as `k` says for the
  state before the step. -/
  | act (f : σ → Option σ) (k : σ → Prog κ σ α)
  /-- Ask a question and go on with the answer. -/
  | ask (q : κ) (k : ℤ → Prog κ σ α)

namespace Prog

variable {κ σ α β γ : Type}

/-! ## Sequencing -/

/-- One program after another. -/
protected def bind : Prog κ σ α → (α → Prog κ σ β) → Prog κ σ β
  | ret a, g => g a
  | act f k, g => act f fun s ↦ (k s).bind g
  | ask q k, g => ask q fun z ↦ (k z).bind g

instance : Monad (Prog κ σ) where
  pure := ret
  bind := Prog.bind

@[simp] theorem ret_bind (a : α) (g : α → Prog κ σ β) : (ret a : Prog κ σ α) >>= g = g a := rfl

@[simp] theorem act_bind (f : σ → Option σ) (k : σ → Prog κ σ α) (g : α → Prog κ σ β) :
    act f k >>= g = act f fun s ↦ k s >>= g := rfl

@[simp] theorem ask_bind (q : κ) (k : ℤ → Prog κ σ α) (g : α → Prog κ σ β) :
    ask q k >>= g = ask q fun z ↦ k z >>= g := rfl

private theorem bind_ret (p : Prog κ σ α) : p >>= ret = p := by
  induction p with
  | ret a => rfl
  | act f k ih => rw [act_bind, funext ih]
  | ask q k ih => rw [ask_bind, funext ih]

private theorem bind_bind (p : Prog κ σ α) (g : α → Prog κ σ β) (h : β → Prog κ σ γ) :
    p >>= g >>= h = p >>= fun a ↦ g a >>= h := by
  induction p with
  | ret a => rfl
  | act f k ih =>
    rw [act_bind, act_bind, act_bind]
    exact congrArg _ (funext ih)
  | ask q k ih =>
    rw [ask_bind, ask_bind, ask_bind]
    exact congrArg _ (funext ih)

instance : LawfulMonad (Prog κ σ) :=
  LawfulMonad.mk' (Prog κ σ) bind_ret (fun _ _ ↦ rfl) bind_bind

/-! ## Statements -/

/-- Read a value off the state. -/
def read (g : σ → β) : Prog κ σ β := act some fun s ↦ ret (g s)

/-- Change the state. -/
def modify (f : σ → σ) : Prog κ σ Unit := act (fun s ↦ some (f s)) fun _ ↦ ret ()

/-- Change the state and return a value that depends on the state before. -/
def update (f : σ → σ) (g : σ → β) : Prog κ σ β := act (fun s ↦ some (f s)) fun s ↦ ret (g s)

/-- Wait until the state allows a change, then change it. -/
def await (enabled : σ → Bool) (f : σ → σ) : Prog κ σ Unit :=
  act (fun s ↦ if enabled s then some (f s) else none) fun _ ↦ ret ()

/-- Never go on. -/
def stuck : Prog κ σ Unit := act (fun _ ↦ none) fun _ ↦ ret ()

/-- Ask the environment. -/
def query (q : κ) : Prog κ σ ℤ := ask q ret

/-- A program on a part of the state, as a program on the whole. -/
def zoom {τ : Type} (get : σ → τ) (set : σ → τ → σ) : Prog κ τ α → Prog κ σ α
  | ret a => ret a
  | act f k => act (fun s ↦ (f (get s)).map (set s)) fun s ↦ (k (get s)).zoom get set
  | ask q k => ask q fun z ↦ (k z).zoom get set

/-! ## Execution without interruption -/

/-- The result and the final state of a program that runs on its own and is given these answers,
or `none` when it gets stuck. -/
def exec (answer : κ → ℤ) : Prog κ σ α → σ → Option (α × σ)
  | ret a, s => some (a, s)
  | act f k, s => (f s).bind fun s' ↦ (k s).exec answer s'
  | ask q k, s => (k (answer q)).exec answer s

/-- A whole program in one step. -/
def atomically [Inhabited α] (answer : κ → ℤ) (p : Prog κ σ α) : Prog κ σ α :=
  act (fun s ↦ (p.exec answer s).map Prod.snd)
    fun s ↦ ret (((p.exec answer s).map Prod.fst).getD default)

section Exec

variable (answer : κ → ℤ)

@[simp] theorem exec_ret (a : α) (s : σ) :
    (ret a : Prog κ σ α).exec answer s = some (a, s) := rfl

@[simp] theorem exec_pure (a : α) (s : σ) :
    (pure a : Prog κ σ α).exec answer s = some (a, s) := rfl

@[simp] theorem exec_bind (p : Prog κ σ α) (g : α → Prog κ σ β) (s : σ) :
    (p >>= g).exec answer s = (p.exec answer s).bind fun x ↦ (g x.1).exec answer x.2 := by
  induction p generalizing s with
  | ret a => rfl
  | act f k ih =>
    rw [act_bind, exec, exec]
    cases f s with
    | none => rfl
    | some s' => exact ih s s'
  | ask q k ih => exact ih (answer q) s

@[simp] theorem exec_map (g : α → β) (p : Prog κ σ α) (s : σ) :
    (g <$> p).exec answer s = (p.exec answer s).map fun x ↦ (g x.1, x.2) := by
  rw [← bind_pure_comp, exec_bind]
  cases p.exec answer s with
  | none => rfl
  | some x => rfl

@[simp] theorem exec_read (g : σ → β) (s : σ) :
    (read g : Prog κ σ β).exec answer s = some (g s, s) := rfl

@[simp] theorem exec_modify (f : σ → σ) (s : σ) :
    (modify f : Prog κ σ Unit).exec answer s = some ((), f s) := rfl

@[simp] theorem exec_update (f : σ → σ) (g : σ → β) (s : σ) :
    (update f g : Prog κ σ β).exec answer s = some (g s, f s) := rfl

@[simp] theorem exec_await (enabled : σ → Bool) (f : σ → σ) (s : σ) :
    (await enabled f : Prog κ σ Unit).exec answer s
      = if enabled s then some ((), f s) else none := by
  rw [await, exec]
  split <;> rfl

@[simp] theorem exec_stuck (s : σ) : (stuck : Prog κ σ Unit).exec answer s = none := rfl

@[simp] theorem exec_query (q : κ) (s : σ) :
    (query q : Prog κ σ ℤ).exec answer s = some (answer q, s) := rfl

@[simp] theorem exec_ite (c : Prop) [Decidable c] (p p' : Prog κ σ α) (s : σ) :
    (if c then p else p').exec answer s = if c then p.exec answer s else p'.exec answer s := by
  split <;> rfl

end Exec

/-! ## Execution statement by statement -/

/-- One statement of a program. -/
inductive Step : Prog κ σ α → σ → Prog κ σ α → σ → Prop
  /-- The program acts. -/
  | act {f : σ → Option σ} {k : σ → Prog κ σ α} {s s' : σ} (h : f s = some s') :
      Step (act f k) s (k s) s'
  /-- The environment answers. -/
  | ask {q : κ} {k : ℤ → Prog κ σ α} {s : σ} (z : ℤ) : Step (ask q k) s (k z) s

/-- The next statement of a program, when the environment answers `z`. -/
def next (z : ℤ) : Prog κ σ α → σ → Option (Prog κ σ α × σ)
  | ret _, _ => none
  | act f k, s => (f s).map fun s' ↦ (k s, s')
  | ask _ k, s => some (k z, s)

theorem next_bind {z : ℤ} {p : Prog κ σ α} (hp : ∀ a, p ≠ ret a) (g : α → Prog κ σ β) (s : σ) :
    (p >>= g).next z s = (p.next z s).map fun x ↦ (x.1 >>= g, x.2) := by
  cases p with
  | ret a => exact absurd rfl (hp a)
  | act f k =>
    rw [act_bind, next, next, Option.map_map]
    rfl
  | ask q k => rfl

theorem step_of_next {z : ℤ} {p p' : Prog κ σ α} {s s' : σ} (h : p.next z s = some (p', s')) :
    Step p s p' s' := by
  cases p with
  | ret a => cases h
  | act f k =>
    obtain ⟨s₁, hf, heq⟩ := Option.map_eq_some_iff.mp h
    cases heq
    exact .act hf
  | ask q k =>
    cases h
    exact .ask z

/-- A relation that contains the statements of a program contains its uninterrupted executions. -/
theorem exec_induction {answer : κ → ℤ} {motive : Prog κ σ α → σ → Prog κ σ α → σ → Prop}
    (refl : ∀ p s, motive p s p s)
    (head : ∀ {p s p' s' p'' s''}, Step p s p' s' → motive p' s' p'' s'' → motive p s p'' s'') :
    ∀ (p : Prog κ σ α) {s s' : σ} {a : α}, p.exec answer s = some (a, s') →
      motive p s (ret a) s' := by
  intro p
  induction p with
  | ret a =>
    intro s s' a' h
    obtain ⟨rfl, rfl⟩ := Prod.mk.inj (Option.some.inj h)
    exact refl _ _
  | act f k ih =>
    intro s s' a h
    rw [exec, Option.bind_eq_some_iff] at h
    obtain ⟨s₁, hf, hk⟩ := h
    exact head (.act hf) (ih s hk)
  | ask q k ih =>
    intro s s' a h
    exact head (.ask (answer q)) (ih _ h)

/-! ## Rely and guarantee -/

/-- From state `s` on, under interference within `R`, the statements of the program are within
`G` and its result satisfies `Q`. -/
def Sat (R G : σ → σ → Prop) : Prog κ σ α → (α → σ → Prop) → σ → Prop
  | ret a, Q, s => ∀ s', R s s' → Q a s'
  | act f k, Q, s => ∀ s', R s s' → ∀ s'', f s' = some s'' → G s' s'' ∧ Sat R G (k s') Q s''
  | ask _ k, Q, s => ∀ z, Sat R G (k z) Q s

/-- A state that interference has led to may be left as it is. A rely settles when it says how
states may change, and what is true of every state that they change to. -/
class Settles (R : σ → σ → Prop) : Prop where
  /-- The state may be left as it is. -/
  settles : ∀ {s s'}, R s s' → R s' s'

instance {R : σ → σ → Prop} [Std.Refl R] : Settles R := ⟨fun _ ↦ refl_of R _⟩

section Sat

variable {R G : σ → σ → Prop} {Q : α → σ → Prop} {p p' : Prog κ σ α} {s s' : σ}

/-- Interference within the rely does no harm. -/
theorem Sat.rely [IsTrans σ R] (h : p.Sat R G Q s) (hR : R s s') : p.Sat R G Q s' := by
  induction p with
  | ret a => exact fun s'' h'' ↦ h s'' (trans_of R hR h'')
  | act f k ih => exact fun s₁ h₁ ↦ h s₁ (trans_of R hR h₁)
  | ask q k ih => exact fun z ↦ ih z (h z)

/-- A statement keeps the guarantee, unless it is a question, and leaves a good program. -/
theorem Sat.step_of (h : p.Sat R G Q s) (hR : R s s) (hstep : Step p s p' s') :
    (G s s' ∨ s' = s) ∧ p'.Sat R G Q s' := by
  cases hstep with
  | act hf =>
    obtain ⟨hG, hrest⟩ := h s hR s' hf
    exact ⟨.inl hG, hrest⟩
  | ask z => exact ⟨.inr rfl, h z⟩

theorem Sat.step [Std.Refl R] (h : p.Sat R G Q s) (hstep : Step p s p' s') :
    (G s s' ∨ s' = s) ∧ p'.Sat R G Q s' := h.step_of (refl_of R s) hstep

theorem Sat.ret [Std.Refl R] {a : α} (h : (Prog.ret a : Prog κ σ α).Sat R G Q s) : Q a s :=
  h s (refl_of R s)

theorem Sat.of_rely [Settles R] (h : ∀ s', R s s' → p.Sat R G Q s') : p.Sat R G Q s := by
  induction p with
  | ret a => exact fun s' hs' ↦ h s' hs' s' (Settles.settles hs')
  | act f k ih => exact fun s' hs' ↦ h s' hs' s' (Settles.settles hs')
  | ask q k ih => exact fun z ↦ ih z fun s' hs' ↦ h s' hs' z

theorem Sat.bind [Settles R] {g : α → Prog κ σ β} {Q' : β → σ → Prop}
    (h : p.Sat R G (fun a s ↦ (g a).Sat R G Q' s) s) : (p >>= g).Sat R G Q' s := by
  induction p generalizing s with
  | ret a => exact .of_rely h
  | act f k ih =>
    intro s₁ h₁ s₂ h₂
    obtain ⟨hG, hrest⟩ := h s₁ h₁ s₂ h₂
    exact ⟨hG, ih s₁ hrest⟩
  | ask q k ih => exact fun z ↦ ih z (h z)

theorem Sat.mono {G' : σ → σ → Prop} {Q' : α → σ → Prop} (h : p.Sat R G Q s)
    (hG : ∀ s s', G s s' → G' s s') (hQ : ∀ a s, Q a s → Q' a s) : p.Sat R G' Q' s := by
  induction p generalizing s with
  | ret a => exact fun s' hs' ↦ hQ a s' (h s' hs')
  | act f k ih =>
    intro s₁ h₁ s₂ h₂
    obtain ⟨hstep, hrest⟩ := h s₁ h₁ s₂ h₂
    exact ⟨hG _ _ hstep, ih s₁ hrest⟩
  | ask q k ih => exact fun z ↦ ih z (h z)

end Sat

end Prog

end DistributorMerger
