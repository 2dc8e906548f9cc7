import DistributorMerger.Concurrency.Triple

/-!
# Locks taken in order

Every lock has a rank, and a program takes a lock only while all the locks that it holds are of
smaller rank. An agent that waits then holds locks of smaller rank than the one it waits for, and
following the holders from lock to lock leads to one that does not wait.

What a program holds is followed by a list: `Ordered me p held after` says that `p`, with the locks
in `held`, takes locks in the name of `me` and in order, and ends with the locks in `after`. A lock
may be made new by others at any time, so the list is an upper bound of what `me` holds. While the
list is not empty, the program asks nothing, and it never waits for anything but a lock.
-/

namespace DistributorMerger

/-! ## Programs that wait for nothing -/

namespace Prog

variable {κ σ α β : Type}

/-- The statement is always enabled, or it never is. -/
def SteadyStatement (f : σ → Option σ) : Prop := (∀ s, (f s).isSome = true) ∨ ∀ s, f s = none

/-- No statement of the program waits for another state. -/
def Steady : Prog κ σ α → Prop
  | ret _ => True
  | act f k => SteadyStatement f ∧ ∀ s, Steady (k s)
  | ask _ k => ∀ z, Steady (k z)

/-- The program has come to a statement that is never executed. -/
def Lost (p : Prog κ σ α) : Prop := ∃ f k, p = .act f k ∧ ∀ s : σ, f s = none

section Steady

variable {p p' : Prog κ σ α}

theorem Steady.pure (a : α) : (pure a : Prog κ σ α).Steady := trivial

theorem Steady.read (g : σ → β) : (Prog.read g : Prog κ σ β).Steady :=
  ⟨.inl fun _ ↦ rfl, fun _ ↦ trivial⟩

theorem Steady.modify (f : σ → σ) : (Prog.modify f : Prog κ σ Unit).Steady :=
  ⟨.inl fun _ ↦ rfl, fun _ ↦ trivial⟩

theorem Steady.stuck : (Prog.stuck : Prog κ σ Unit).Steady := ⟨.inr fun _ ↦ rfl, fun _ ↦ trivial⟩

theorem Steady.query (q : κ) : (Prog.query q : Prog κ σ ℤ).Steady := fun _ ↦ trivial

theorem Steady.atomically [Inhabited α] {answer : κ → ℤ}
    (h : ∀ s, (p.exec answer s).isSome = true) : (p.atomically answer).Steady := by
  refine ⟨.inl fun s ↦ ?_, fun _ ↦ trivial⟩
  rw [Option.isSome_map]
  exact h s

theorem Steady.bind {g : α → Prog κ σ β} (hp : p.Steady) (hg : ∀ a, (g a).Steady) :
    (p >>= g).Steady := by
  induction p with
  | ret a => exact hg a
  | act f k ih => exact ⟨hp.1, fun s ↦ ih s (hp.2 s)⟩
  | ask q k ih => exact fun z ↦ ih z (hp z)

theorem Steady.ite {c : Prop} [Decidable c] (hp : p.Steady) (hp' : p'.Steady) :
    (if c then p else p').Steady := by
  split
  · exact hp
  · exact hp'

end Steady

end Prog

/-- Locks, their holders and their ranks, and what may be done while a lock is held. -/
structure LockOrder (A L σ : Type) where
  /-- The holder of a lock. -/
  holder : L → σ → Option A
  /-- The rank of a lock. -/
  rank : L → ℕ
  /-- What a statement that is executed while a lock is held may do. -/
  inside : σ → σ → Prop
  /-- A state in which no lock is held. -/
  free : σ
  /-- No lock is held there. -/
  holder_free : ∀ l, holder l free = none

namespace LockOrder

variable {A L σ κ α β : Type} (O : LockOrder A L σ)

/-! ## Statements -/

/-- The statement waits until `l` is free, and takes it in the name of `me`. -/
structure Takes (me : A) (l : L) (f : σ → Option σ) : Prop where
  /-- It waits exactly as long as the lock is held. -/
  waits : ∀ s, f s = none ↔ (O.holder l s).isSome = true
  /-- The lock is taken. -/
  taken : ∀ s s', f s = some s' → O.holder l s' = some me
  /-- The other locks stay as they are. -/
  others : ∀ s s', f s = some s' → ∀ l', l' ≠ l → O.holder l' s' = O.holder l' s

/-- The statement frees `l`, whoever holds it. -/
structure Frees (l : L) (f : σ → Option σ) : Prop where
  /-- It does not wait. -/
  enabled : ∀ s, (f s).isSome = true
  /-- The lock is freed. -/
  freed : ∀ s s', f s = some s' → O.holder l s' = none
  /-- The other locks stay as they are. -/
  others : ∀ s s', f s = some s' → ∀ l', l' ≠ l → O.holder l' s' = O.holder l' s

/-- No lock is taken. -/
def Spares (s s' : σ) : Prop := ∀ l, O.holder l s' = O.holder l s ∨ O.holder l s' = none

/-- Locks are taken only in the name of `me`. -/
def TakesAs (me : A) (s s' : σ) : Prop :=
  ∀ l, O.holder l s' = O.holder l s ∨ O.holder l s' = none ∨ O.holder l s' = some me

/-- The locks that `me` holds are among `held`. -/
def HeldWithin (me : A) (held : List L) (s : σ) : Prop := ∀ l, O.holder l s = some me → l ∈ held

/-- What the statement does may be done while a lock is held. -/
def Inside (f : σ → Option σ) : Prop := ∀ s s', f s = some s' → O.inside s s'

/-- The next statement of the program waits for `l`, which is held. -/
def Waits (me : A) (l : L) (p : Prog κ σ α) (s : σ) : Prop :=
  ∃ f k, p = .act f k ∧ O.Takes me l f ∧ (O.holder l s).isSome = true

/-- The program, which holds at most the locks in `held`, takes locks of increasing rank and ends
with at most the locks in `after`. While it holds a lock it asks nothing. -/
def Ordered (me : A) : Prog κ σ α → List L → List L → Prop
  | .ret _, held, after => held = after
  | .act f k, held, after =>
    (∃ l, O.Takes me l f ∧ O.Inside f ∧ (∀ l' ∈ held, O.rank l' < O.rank l) ∧
      ∀ s, Ordered me (k s) (l :: held) after) ∨
    (∃ l rest, held = l :: rest ∧ O.Frees l f ∧ O.Inside f ∧
      ∀ s, Ordered me (k s) rest after) ∨
    ((∀ s s', f s = some s' → O.Spares s s') ∧ Prog.SteadyStatement f ∧
      (held ≠ [] → O.Inside f) ∧ ∀ s, Ordered me (k s) held after)
  | .ask _ k, held, after => held = [] ∧ ∀ z, Ordered me (k z) held after

variable {O} {me other : A} {l l' : L} {held after last : List L} {s s' : σ} {f : σ → Option σ}
  {p p' : Prog κ σ α} {z : ℤ}

theorem Spares.takesAs (h : O.Spares s s') : O.TakesAs me s s' := fun l ↦ (h l).imp_right .inl

theorem Takes.takesAs (h : O.Takes me l f) (hf : f s = some s') : O.TakesAs me s s' := by
  intro l'
  by_cases hl : l' = l
  · subst hl
    exact .inr (.inr (h.taken s s' hf))
  · exact .inl (h.others s s' hf l' hl)

theorem Frees.takesAs (h : O.Frees l f) (hf : f s = some s') : O.TakesAs me s s' := by
  intro l'
  by_cases hl : l' = l
  · subst hl
    exact .inr (.inl (h.freed s s' hf))
  · exact .inl (h.others s s' hf l' hl)

theorem HeldWithin.of_takesAs (h : O.HeldWithin me held s) (hs : O.TakesAs other s s')
    (hne : other ≠ me) : O.HeldWithin me held s' := by
  intro l hl
  rcases hs l with hsame | hnone | hother
  · exact h l (hsame ▸ hl)
  · exact absurd (hnone.symm.trans hl) nofun
  · exact absurd (Option.some.inj (hother.symm.trans hl)) hne

theorem HeldWithin.of_spares (h : O.HeldWithin me held s) (hs : O.Spares s s') :
    O.HeldWithin me held s' := by
  intro l hl
  rcases hs l with hsame | hnone
  · exact h l (hsame ▸ hl)
  · exact absurd (hnone.symm.trans hl) nofun

theorem Takes.unique (h : O.Takes me l f) (h' : O.Takes other l' f) : l = l' := by
  by_contra hne
  cases hf : f O.free with
  | none =>
    have hheld := (h.waits O.free).mp hf
    rw [O.holder_free] at hheld
    exact absurd hheld nofun
  | some s' =>
    have htaken := h.taken _ _ hf
    rw [h'.others _ _ hf l hne, O.holder_free] at htaken
    exact absurd htaken nofun

/-! ## Ordered programs -/

section Rules

theorem Ordered.pure (a : α) : O.Ordered me (pure a : Prog κ σ α) held held := rfl

theorem Ordered.bind {g : α → Prog κ σ β} (hp : O.Ordered me p held after)
    (hg : ∀ a, O.Ordered me (g a) after last) : O.Ordered me (p >>= g) held last := by
  induction p generalizing held with
  | ret a =>
    obtain rfl : held = after := hp
    exact hg a
  | act f k ih =>
    rcases hp with ⟨l, htakes, hinside, hrank, hk⟩ | ⟨l, rest, hheld, hfrees, hinside, hk⟩ |
      ⟨hspares, hsteady, hinside, hk⟩
    · exact .inl ⟨l, htakes, hinside, hrank, fun s ↦ ih s (hk s)⟩
    · exact .inr (.inl ⟨l, rest, hheld, hfrees, hinside, fun s ↦ ih s (hk s)⟩)
    · exact .inr (.inr ⟨hspares, hsteady, hinside, fun s ↦ ih s (hk s)⟩)
  | ask q k ih => exact ⟨hp.1, fun z ↦ ih z (hp.2 z)⟩

theorem Ordered.ite {c : Prop} [Decidable c] (hp : O.Ordered me p held after)
    (hp' : O.Ordered me p' held after) : O.Ordered me (if c then p else p') held after := by
  split
  · exact hp
  · exact hp'

theorem Ordered.update {f : σ → σ} (g : σ → β) (h : ∀ s, O.Spares s (f s))
    (hinside : ∀ s, O.inside s (f s)) :
    O.Ordered me (Prog.update f g : Prog κ σ β) held held :=
  .inr (.inr ⟨fun s _ hs ↦ Option.some.inj hs ▸ h s, .inl fun _ ↦ rfl,
    fun _ s _ hs ↦ Option.some.inj hs ▸ hinside s, fun _ ↦ rfl⟩)

theorem Ordered.modify {f : σ → σ} (h : ∀ s, O.Spares s (f s)) (hinside : ∀ s, O.inside s (f s)) :
    O.Ordered me (Prog.modify f : Prog κ σ Unit) held held :=
  Ordered.update (fun _ ↦ ()) h hinside

theorem Ordered.read [Std.Refl O.inside] (g : σ → β) :
    O.Ordered me (Prog.read g : Prog κ σ β) held held :=
  Ordered.update g (fun _ _ ↦ .inl rfl) (refl_of O.inside)

theorem Ordered.stuck : O.Ordered me (Prog.stuck : Prog κ σ Unit) held held :=
  .inr (.inr ⟨fun _ _ h ↦ (nomatch h), .inr fun _ ↦ rfl, fun _ _ _ h ↦ (nomatch h), fun _ ↦ rfl⟩)

theorem Ordered.of_within (h : p.Within O.Spares) (hsteady : p.Steady) :
    O.Ordered me p [] [] := by
  induction p with
  | ret a => rfl
  | act f k ih =>
    exact .inr (.inr ⟨h.1, hsteady.1, fun hne ↦ absurd rfl hne, fun s ↦ ih s (h.2 s) (hsteady.2 s)⟩)
  | ask q k ih => exact ⟨rfl, fun z ↦ ih z (h z) (hsteady z)⟩

theorem Ordered.take {enabled : σ → Bool} {f : σ → σ} (hrank : ∀ l' ∈ held, O.rank l' < O.rank l)
    (henabled : ∀ s, enabled s = (O.holder l s).isNone) (htaken : ∀ s, O.holder l (f s) = some me)
    (hothers : ∀ s l', l' ≠ l → O.holder l' (f s) = O.holder l' s)
    (hinside : ∀ s, O.inside s (f s)) :
    O.Ordered me (Prog.await enabled f : Prog κ σ Unit) held (l :: held) := by
  have hsome : ∀ s s', (if enabled s then some (f s) else none) = some s' → f s = s' := by
    intro s s' hs
    exact Option.some.inj (Option.ite_none_right_eq_some.mp hs).2
  refine .inl ⟨l, ⟨fun s ↦ ?_, fun s s' hs ↦ ?_, fun s s' hs ↦ ?_⟩, fun s s' hs ↦ ?_, hrank,
    fun _ ↦ rfl⟩
  · rw [henabled]
    cases O.holder l s <;> simp
  · rw [← hsome s s' hs]
    exact htaken s
  · rw [← hsome s s' hs]
    exact hothers s
  · rw [← hsome s s' hs]
    exact hinside s

theorem Ordered.release {f : σ → σ} (hfreed : ∀ s, O.holder l (f s) = none)
    (hothers : ∀ s l', l' ≠ l → O.holder l' (f s) = O.holder l' s)
    (hinside : ∀ s, O.inside s (f s)) :
    O.Ordered me (Prog.modify f : Prog κ σ Unit) (l :: held) held := by
  refine .inr (.inl ⟨l, held, rfl, ⟨fun _ ↦ rfl, fun s s' hs ↦ ?_, fun s s' hs ↦ ?_⟩,
    fun s s' hs ↦ ?_, fun _ ↦ rfl⟩)
  · rw [← Option.some.inj hs]
    exact hfreed s
  · rw [← Option.some.inj hs]
    exact hothers s
  · rw [← Option.some.inj hs]
    exact hinside s

end Rules

/-! ## Running an ordered program -/

theorem Ordered.next (h : O.Ordered me p held after) (hheld : O.HeldWithin me held s)
    (hnext : p.next z s = some (p', s')) :
    O.TakesAs me s s' ∧ ∃ held', O.Ordered me p' held' after ∧ O.HeldWithin me held' s' := by
  cases p with
  | ret a => cases hnext
  | act f k =>
    obtain ⟨s₁, hf, heq⟩ := Option.map_eq_some_iff.mp hnext
    cases heq
    rcases h with ⟨l, htakes, -, -, hk⟩ | ⟨l, rest, rfl, hfrees, -, hk⟩ | ⟨hspares, -, -, hk⟩
    · refine ⟨htakes.takesAs hf, l :: held, hk s, fun l' hl' ↦ ?_⟩
      by_cases hl : l' = l
      · exact hl ▸ List.mem_cons_self
      · rw [htakes.others s s' hf l' hl] at hl'
        exact List.mem_cons_of_mem l (hheld l' hl')
    · refine ⟨hfrees.takesAs hf, rest, hk s, fun l' hl' ↦ ?_⟩
      by_cases hl : l' = l
      · rw [hl, hfrees.freed s s' hf] at hl'
        exact absurd hl' nofun
      · rw [hfrees.others s s' hf l' hl] at hl'
        exact (List.mem_cons.mp (hheld l' hl')).resolve_left hl
    · exact ⟨(hspares s s' hf).takesAs, held, hk s, hheld.of_spares (hspares s s' hf)⟩
  | ask q k =>
    cases hnext
    exact ⟨fun _ ↦ .inl rfl, held, h.2 z, hheld⟩

theorem Takes.not_steady (h : O.Takes me l f) (hnone : f s = none) :
    ¬ Prog.SteadyStatement f := by
  rintro (hall | hnever)
  · exact absurd (hnone ▸ hall s) nofun
  · have hfree := (h.waits O.free).mp (hnever O.free)
    rw [O.holder_free] at hfree
    exact absurd hfree nofun

theorem Ordered.rank_lt (h : O.Ordered me p held after) (hwaits : O.Waits me l p s)
    (hl' : l' ∈ held) : O.rank l' < O.rank l := by
  obtain ⟨f, k, rfl, htakes, hheld⟩ := hwaits
  have hsteady := htakes.not_steady ((htakes.waits s).mpr hheld)
  rcases h with ⟨l₁, htakes₁, -, hrank, -⟩ | ⟨l₁, rest, -, hfrees, -⟩ | ⟨-, hsteady', -⟩
  · rw [htakes.unique htakes₁]
    exact hrank l' hl'
  · exact absurd (.inl hfrees.enabled) hsteady
  · exact absurd hsteady' hsteady

/-- An ordered program goes on, unless it has returned, waits for a lock or has come to a statement
that is never executed. -/
theorem Ordered.goes_on (h : O.Ordered me p held after) (hret : ∀ a, p ≠ .ret a) (s : σ) :
    (∀ z, (p.next z s).isSome = true) ∨ (∃ l, O.Waits me l p s) ∨ p.Lost := by
  cases p with
  | ret a => exact absurd rfl (hret a)
  | act f k =>
    have hnext : ∀ z, ((Prog.act f k).next z s).isSome = (f s).isSome := fun z ↦ Option.isSome_map
    simp only [hnext, forall_const]
    rcases h with ⟨l, htakes, -⟩ | ⟨l, rest, -, hfrees, -⟩ | ⟨-, hsteady, -⟩
    · cases hf : f s with
      | none => exact .inr (.inl ⟨l, f, k, rfl, htakes, (htakes.waits s).mp hf⟩)
      | some s' => exact .inl rfl
    · exact .inl (hfrees.enabled s)
    · rcases hsteady with hall | hnever
      · exact .inl (hall s)
      · exact .inr (.inr ⟨f, k, rfl, hnever⟩)
  | ask q k => exact .inl fun _ ↦ rfl

theorem Ordered.next_inside (h : O.Ordered me p held []) (hne : held ≠ [])
    (hnext : p.next z s = some (p', s')) : O.inside s s' := by
  cases p with
  | ret a => cases hnext
  | act f k =>
    obtain ⟨s₁, hf, heq⟩ := Option.map_eq_some_iff.mp hnext
    cases heq
    rcases h with ⟨l, -, hinside, -⟩ | ⟨l, rest, -, -, hinside, -⟩ | ⟨-, -, hinside, -⟩
    · exact hinside s s' hf
    · exact hinside s s' hf
    · exact hinside hne s s' hf
  | ask q k => exact absurd h.1 hne

/-! ## Waiting -/

variable {wants : A → L → Prop} {a b : A} {bound : ℕ}

variable (O) in
/-- The first agent wants a lock that the second holds. -/
def WaitsFor (wants : A → L → Prop) (s : σ) (a b : A) : Prop :=
  ∃ l, wants a l ∧ O.holder l s = some b

variable (O) in
/-- Agents want only locks of greater rank than those they hold. -/
def InOrder (wants : A → L → Prop) (s : σ) : Prop :=
  ∀ a l l', wants a l → O.holder l' s = some a → O.rank l' < O.rank l

/-- Along a chain of agents that wait for each other, the ranks do not decrease. -/
theorem InOrder.rank_le (h : O.InOrder wants s)
    (hchain : Relation.TransGen (O.WaitsFor wants s) a b) :
    ∃ l l', wants a l ∧ O.holder l' s = some b ∧ O.rank l ≤ O.rank l' := by
  induction hchain with
  | single hab =>
    obtain ⟨l, hwants, hholder⟩ := hab
    exact ⟨l, l, hwants, hholder, le_refl _⟩
  | tail _ hbc ih =>
    obtain ⟨l, l', hwants, hholder, hle⟩ := ih
    obtain ⟨l'', hwants', hholder'⟩ := hbc
    exact ⟨l, l'', hwants, hholder', hle.trans (h _ l'' l' hwants' hholder).le⟩

/-- **No circle of waiting.** -/
theorem InOrder.irrefl (h : O.InOrder wants s) (a : A) :
    ¬ Relation.TransGen (O.WaitsFor wants s) a a := by
  intro hchain
  obtain ⟨l, l', hwants, hholder, hle⟩ := h.rank_le hchain
  exact absurd (h a l l' hwants hholder) (by omega)

/-- **Waiting leads to an agent that does not wait.** Following the holders from a holder of a lock
leads to a holder that wants no lock. -/
theorem InOrder.exists_last (h : O.InOrder wants s) (hbound : ∀ l, O.rank l ≤ bound)
    (hheld : ∀ a l, wants a l → (O.holder l s).isSome = true) (hl : O.holder l s = some b) :
    ∃ b' l', Relation.ReflTransGen (O.WaitsFor wants s) b b' ∧ O.holder l' s = some b' ∧
      ∀ l'', ¬ wants b' l'' := by
  -- by induction on how far the rank is below the bound
  induction hn : bound - O.rank l using Nat.strongRecOn generalizing l b with
  | ind n ih =>
    by_cases hwants : ∃ l', wants b l'
    · obtain ⟨l', hl'⟩ := hwants
      have hlt := h b l' l hl' hl
      obtain ⟨c, hc⟩ := Option.isSome_iff_exists.mp (hheld b l' hl')
      have hle := hbound l'
      obtain ⟨b', l'', hchain, hrest⟩ := ih (bound - O.rank l') (by omega) hc rfl
      exact ⟨b', l'', .head ⟨l', hl', hc⟩ hchain, hrest⟩
    · exact ⟨b, l, .refl, hl, not_exists.mp hwants⟩

end LockOrder

end DistributorMerger
