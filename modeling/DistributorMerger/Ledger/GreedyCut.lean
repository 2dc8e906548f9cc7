import Mathlib

/-!
# Cutting a sequence greedily into blocks of bounded weight

A *greedy cut* of a sequence is a list of non-empty blocks that concatenate to it, each within a
capacity, where a new block is begun only for an element that the block before it could not take.
The cut is built from the left: an element either extends the last block or begins the next one,
and the two rules below say when each of these keeps the cut greedy.
-/

namespace DistributorMerger

variable {α : Type*} (weight : α → ℕ) (capacity : ℕ)

/-- The weight of a block. -/
def blockWeight (b : List α) : ℕ := (b.map weight).sum

@[simp] theorem blockWeight_nil : blockWeight weight [] = 0 := rfl

@[simp] theorem blockWeight_concat (b : List α) (x : α) :
    blockWeight weight (b ++ [x]) = blockWeight weight b + weight x := by
  rw [blockWeight, blockWeight, List.map_append, List.sum_append, List.map_singleton,
    List.sum_singleton]

/-- The block `b` has no room left for the first element of `c`. -/
def NoRoom (b c : List α) : Prop := ∀ x ∈ c.head?, capacity < blockWeight weight b + weight x

/-- The blocks are a greedy cut of the sequence. -/
structure GreedyCut (xs : List α) (blocks : List (List α)) : Prop where
  /-- The blocks hold the elements of the sequence, in their order. -/
  flatten : blocks.flatten = xs
  /-- No block is empty. -/
  nonempty : ∀ b ∈ blocks, b ≠ []
  /-- No block exceeds the capacity. -/
  fits : ∀ b ∈ blocks, blockWeight weight b ≤ capacity
  /-- Each block but the last had no room for the element that the next one begins with. -/
  full : blocks.IsChain (NoRoom weight capacity)

namespace GreedyCut

variable {weight capacity} {xs : List α} {blocks : List (List α)} {b : List α} {x : α}

theorem nil : GreedyCut weight capacity ([] : List α) [] :=
  ⟨rfl, by simp, by simp, List.IsChain.nil⟩

theorem start (h : GreedyCut weight capacity xs blocks) (hx : weight x ≤ capacity)
    (hlast : ∀ b ∈ blocks.getLast?, capacity < blockWeight weight b + weight x) :
    GreedyCut weight capacity (xs ++ [x]) (blocks ++ [[x]]) := by
  refine ⟨?_, ?_, ?_, ?_⟩
  · rw [List.flatten_append, h.flatten, List.flatten_singleton]
  · intro b hb
    rcases List.mem_append.mp hb with hb | hb
    · exact h.nonempty b hb
    · rw [List.mem_singleton.mp hb]
      exact List.cons_ne_nil _ _
  · intro b hb
    rcases List.mem_append.mp hb with hb | hb
    · exact h.fits b hb
    · rw [List.mem_singleton.mp hb, ← List.nil_append [x], blockWeight_concat, blockWeight_nil,
        Nat.zero_add]
      exact hx
  · refine List.isChain_append.mpr ⟨h.full, List.isChain_singleton _, ?_⟩
    intro b hb c hc y hy
    rw [List.head?_singleton, Option.mem_some_iff] at hc
    rw [← hc, List.head?_singleton, Option.mem_some_iff] at hy
    rw [← hy]
    exact hlast b hb

theorem extend (h : GreedyCut weight capacity xs (blocks ++ [b]))
    (hx : blockWeight weight b + weight x ≤ capacity) :
    GreedyCut weight capacity (xs ++ [x]) (blocks ++ [b ++ [x]]) := by
  have hb : b ≠ [] := h.nonempty b (List.mem_append_right _ (List.mem_singleton_self b))
  obtain ⟨hinit, -, hlast⟩ := List.isChain_append.mp h.full
  refine ⟨?_, ?_, ?_, ?_⟩
  · rw [← h.flatten, List.flatten_append, List.flatten_append, List.flatten_singleton,
      List.flatten_singleton, List.append_assoc]
  · intro c hc
    rcases List.mem_append.mp hc with hc | hc
    · exact h.nonempty c (List.mem_append_left _ hc)
    · rw [List.mem_singleton.mp hc]
      exact List.append_ne_nil_of_left_ne_nil hb _
  · intro c hc
    rcases List.mem_append.mp hc with hc | hc
    · exact h.fits c (List.mem_append_left _ hc)
    · rw [List.mem_singleton.mp hc, blockWeight_concat]
      exact hx
  · refine List.isChain_append.mpr ⟨hinit, List.isChain_singleton _, ?_⟩
    -- the extended block still begins with the element it began with
    intro c hc d hd y hy
    rw [List.head?_singleton, Option.mem_some_iff] at hd
    rw [← hd, List.head?_append_of_ne_nil _ hb] at hy
    exact hlast c hc b (List.head?_singleton ▸ rfl) y hy

/-! ### Comparing cuts -/

theorem eq_nil (h : GreedyCut weight capacity xs []) : xs = [] := h.flatten.symm

/-- Behind its first block a greedy cut cuts the rest greedily. -/
theorem behind (h : GreedyCut weight capacity xs (b :: blocks)) :
    ∃ rest, xs = b ++ rest ∧ GreedyCut weight capacity rest blocks ∧
      ∀ y ∈ rest.head?, capacity < blockWeight weight b + weight y := by
  refine ⟨blocks.flatten, ?_, ⟨rfl, ?_, ?_, h.full.tail⟩, ?_⟩
  · rw [← h.flatten, List.flatten_cons]
  · exact fun c hc ↦ h.nonempty c (List.mem_cons_of_mem _ hc)
  · exact fun c hc ↦ h.fits c (List.mem_cons_of_mem _ hc)
  · intro y hy
    cases blocks with
    | nil => cases hy
    | cons c blocks =>
      -- the element that comes next is the first one of the next block
      have hc : c ≠ [] := h.nonempty c (List.mem_cons_of_mem _ List.mem_cons_self)
      rw [List.flatten_cons, List.head?_append_of_ne_nil _ hc] at hy
      exact (List.isChain_cons_cons.mp h.full).1 y hy

/-- A block that takes in a whole block of a greedy cut and what comes behind it is too heavy. -/
theorem exceeds {u t : List α} {y : α}
    (hfull : capacity < blockWeight weight b + weight y) :
    capacity < blockWeight weight (u ++ b ++ y :: t) := by
  have hweight : blockWeight weight (u ++ b ++ y :: t)
      = blockWeight weight u + blockWeight weight b + (weight y + blockWeight weight t) := by
    simp only [blockWeight, List.map_append, List.map_cons, List.sum_append, List.sum_cons]
  omega

/-- **The greedy cut stays ahead.** Any cut of a sequence into blocks within the capacity has at
least as many blocks as a greedy cut of what is left of the sequence behind some first part. -/
theorem length_le_of_suffix {ys : List α} {cut : List (List α)}
    (h : GreedyCut weight capacity xs blocks) (hsuffix : xs <:+ ys) (hcut : cut.flatten = ys)
    (hfits : ∀ b ∈ cut, blockWeight weight b ≤ capacity) : blocks.length ≤ cut.length := by
  induction cut generalizing xs ys blocks with
  | nil =>
    rw [← hcut, List.flatten_nil, List.suffix_nil] at hsuffix
    cases blocks with
    | nil => exact le_refl _
    | cons b blocks =>
      obtain ⟨rest, hxs, -⟩ := h.behind
      have hb := (List.append_eq_nil_iff.mp (hxs.symm.trans hsuffix)).1
      exact absurd hb (h.nonempty b List.mem_cons_self)
  | cons d cut ih =>
    cases blocks with
    | nil => exact Nat.zero_le _
    | cons b blocks =>
      obtain ⟨rest, rfl, hrest, hfull⟩ := h.behind
      obtain ⟨u, rfl⟩ := hsuffix
      rw [List.flatten_cons, ← List.append_assoc] at hcut
      have hfits' : ∀ b ∈ cut, blockWeight weight b ≤ capacity := fun b hb ↦
        hfits b (List.mem_cons_of_mem _ hb)
      refine Nat.succ_le_succ (ih hrest ?_ rfl hfits')
      rcases List.append_eq_append_iff.mp hcut with ⟨t, -, htail⟩ | ⟨t, hd, hrest'⟩
      · exact ⟨t, htail.symm⟩
      · cases t with
        | nil => exact hrest' ▸ List.suffix_refl _
        | cons y t =>
          -- the first block of the other cut would have taken in the first greedy one and more
          have hheavy := exceeds (u := u) (t := t) (hfull y (by rw [hrest']; rfl))
          exact absurd (hd ▸ hfits d List.mem_cons_self) (Nat.not_le.mpr hheavy)

/-- **A greedy cut has the fewest blocks.** -/
theorem length_le {cut : List (List α)} (h : GreedyCut weight capacity xs blocks)
    (hcut : cut.flatten = xs) (hfits : ∀ b ∈ cut, blockWeight weight b ≤ capacity) :
    blocks.length ≤ cut.length := h.length_le_of_suffix (List.suffix_refl xs) hcut hfits

theorem eq_singleton (h : GreedyCut weight capacity xs blocks) (hne : xs ≠ [])
    (hfits : blockWeight weight xs ≤ capacity) : blocks = [xs] := by
  have hle : blocks.length ≤ [xs].length := by
    refine h.length_le (List.flatten_singleton ..) fun b hb ↦ ?_
    rwa [List.mem_singleton.mp hb]
  cases blocks with
  | nil => exact absurd h.eq_nil hne
  | cons b blocks =>
    obtain rfl := List.eq_nil_of_length_eq_zero (Nat.le_zero.mp (Nat.le_of_succ_le_succ hle))
    rw [← h.flatten, List.flatten_singleton]

end GreedyCut

end DistributorMerger
