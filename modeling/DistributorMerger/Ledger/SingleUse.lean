import Mathlib

/-!
# Logs of keys that are issued and redeemed once

Some events of a log issue a key and some redeem one. A log is *redeemed once* when every
redemption can be traced back to an earlier issue of the same key, and no issue is the origin of
two redemptions.

A program keeps this up with a finite memory: a family of slots, each of which remembers at most
one key that is still good. The log is *accounted for* by the slots when the remembered keys have
issues of their own, none of them spent. Four moves keep a log accounted for: an event that
redeems nothing, an issue remembered in a slot, a redemption of a remembered key that clears its
slot, and forgetting. What a slot held before an issue does not matter.
-/

namespace DistributorMerger

section SingleUse

variable {ε κ ι : Type*} (issued redeemed : ε → Option κ)

/-- The positions at which a key is redeemed. -/
def redemptions (log : List ε) : Set ℕ := {k | ∃ e, log[k]? = some e ∧ (redeemed e).isSome}

/-- Each redemption has an earlier issue of its key for origin, and its origin for itself. -/
structure RedeemedFrom (log : List ε) (origin : ℕ → ℕ) : Prop where
  /-- The origin of a redemption is an earlier issue of the same key. -/
  traced : ∀ k e key, log[k]? = some e → redeemed e = some key →
    origin k < k ∧ ∃ e', log[origin k]? = some e' ∧ issued e' = some key
  /-- No issue is redeemed twice. -/
  injOn : Set.InjOn origin (redemptions redeemed log)

/-- The keys in the slots `live` are issued at the positions `source` and not spent. -/
structure AccountedBy (log : List ε) (live : ι → Option κ) (origin : ℕ → ℕ) (source : ι → ℕ) :
    Prop extends RedeemedFrom issued redeemed log origin where
  /-- The source of a remembered key is an issue of it. -/
  live_traced : ∀ i key, live i = some key →
    ∃ e, log[source i]? = some e ∧ issued e = some key
  /-- Remembered keys have sources of their own. -/
  live_injOn : Set.InjOn source {i | (live i).isSome}
  /-- The source of a remembered key has not been redeemed. -/
  unspent : ∀ i, (live i).isSome → ∀ k ∈ redemptions redeemed log, source i ≠ origin k

/-- The log is accounted for by the keys that the slots remember. -/
def Accounted (log : List ε) (live : ι → Option κ) : Prop :=
  ∃ origin source, AccountedBy issued redeemed log live origin source

variable {issued redeemed} {log : List ε} {live : ι → Option κ} {e : ε} {key : κ}

/-! ## Positions of an extended log -/

private theorem getElem?_concat_old {k : ℕ} {a : ε} (h : log[k]? = some a) :
    (log ++ [e])[k]? = some a := by
  rw [List.getElem?_append_left (List.getElem?_eq_some_iff.mp h).1, h]

private theorem getElem?_concat_cases {k : ℕ} {a : ε} (h : (log ++ [e])[k]? = some a) :
    log[k]? = some a ∨ k = log.length ∧ a = e := by
  rcases Nat.lt_trichotomy k log.length with hk | rfl | hk
  · rw [List.getElem?_append_left hk] at h
    exact .inl h
  · rw [List.getElem?_concat_length] at h
    exact .inr ⟨rfl, (Option.some.inj h).symm⟩
  · rw [List.getElem?_eq_none (by rw [List.length_append, List.length_singleton]; omega)] at h
    cases h

private theorem lt_length_of_mem_redemptions {k : ℕ} (h : k ∈ redemptions redeemed log) :
    k < log.length := by
  obtain ⟨a, ha, -⟩ := h
  exact (List.getElem?_eq_some_iff.mp ha).1

private theorem redemptions_concat_subset :
    redemptions redeemed (log ++ [e]) ⊆ insert log.length (redemptions redeemed log) := by
  rintro k ⟨a, ha, hred⟩
  rcases getElem?_concat_cases ha with h | ⟨rfl, -⟩
  · exact .inr ⟨a, h, hred⟩
  · exact .inl rfl

private theorem redemptions_concat_of_none (hnone : redeemed e = none) :
    redemptions redeemed (log ++ [e]) = redemptions redeemed log := by
  ext k
  constructor
  · rintro ⟨a, ha, hred⟩
    rcases getElem?_concat_cases ha with h | ⟨-, rfl⟩
    · exact ⟨a, h, hred⟩
    · rw [hnone] at hred
      cases hred
  · rintro ⟨a, ha, hred⟩
    exact ⟨a, getElem?_concat_old ha, hred⟩

/-! ## Accounts -/

section AccountedBy

variable {origin : ℕ → ℕ} {source : ι → ℕ}

private theorem AccountedBy.origin_lt (h : AccountedBy issued redeemed log live origin source)
    {k : ℕ} (hk : k ∈ redemptions redeemed log) : origin k < k := by
  obtain ⟨a, ha, hred⟩ := hk
  obtain ⟨key, hkey⟩ := Option.isSome_iff_exists.mp hred
  exact (h.traced k a key ha hkey).1

private theorem AccountedBy.source_lt (h : AccountedBy issued redeemed log live origin source)
    {i : ι} (hi : (live i).isSome) : source i < log.length := by
  obtain ⟨key, hkey⟩ := Option.isSome_iff_exists.mp hi
  obtain ⟨a, ha, -⟩ := h.live_traced i key hkey
  exact (List.getElem?_eq_some_iff.mp ha).1

private theorem AccountedBy.silent (h : AccountedBy issued redeemed log live origin source)
    (hred : redeemed e = none) :
    AccountedBy issued redeemed (log ++ [e]) live origin source := by
  refine ⟨⟨?_, ?_⟩, ?_, h.live_injOn, ?_⟩
  · intro k a key ha hkey
    rcases getElem?_concat_cases ha with hold | ⟨-, rfl⟩
    · obtain ⟨hlt, a', ha', hiss⟩ := h.traced k a key hold hkey
      exact ⟨hlt, a', getElem?_concat_old ha', hiss⟩
    · rw [hred] at hkey
      cases hkey
  · rw [redemptions_concat_of_none hred]
    exact h.injOn
  · intro i key hi
    obtain ⟨a, ha, hiss⟩ := h.live_traced i key hi
    exact ⟨a, getElem?_concat_old ha, hiss⟩
  · rw [redemptions_concat_of_none hred]
    exact h.unspent

end AccountedBy

/-! ## The moves -/

private theorem ne_of_isSome_update_none [DecidableEq ι] (live : ι → Option κ) (i : ι) {j : ι}
    (h : (Function.update live i none j).isSome) : j ≠ i ∧ (live j).isSome := by
  by_cases hji : j = i
  · subst hji
    rw [Function.update_self] at h
    cases h
  · rw [Function.update_of_ne hji] at h
    exact ⟨hji, h⟩

theorem accounted_nil : Accounted issued redeemed [] (fun _ : ι ↦ none) := by
  refine ⟨id, fun _ ↦ 0, ⟨⟨?_, ?_⟩, ?_, ?_, ?_⟩⟩
  · intro k e key h
    cases h
  · rintro k ⟨e, h, -⟩
    cases h
  · intro i key h
    cases h
  · intro i h
    cases h
  · intro i h
    cases h

theorem Accounted.forget [DecidableEq ι] (h : Accounted issued redeemed log live) (i : ι) :
    Accounted issued redeemed log (Function.update live i none) := by
  obtain ⟨origin, source, hacc⟩ := h
  have hne := fun {j} ↦ ne_of_isSome_update_none live i (j := j)
  refine ⟨origin, source, ⟨hacc.toRedeemedFrom, fun j key hj ↦ ?_,
    fun j hj k hk ↦ hacc.live_injOn (hne hj).2 (hne hk).2, fun j hj ↦ hacc.unspent j (hne hj).2⟩⟩
  rw [Function.update_of_ne (hne (Option.isSome_iff_exists.mpr ⟨key, hj⟩)).1] at hj
  exact hacc.live_traced j key hj

theorem Accounted.silent (h : Accounted issued redeemed log live) (hred : redeemed e = none) :
    Accounted issued redeemed (log ++ [e]) live := by
  obtain ⟨origin, source, hacc⟩ := h
  exact ⟨origin, source, hacc.silent hred⟩

/-- An issue may be remembered in any slot, whatever the slot remembered before. -/
theorem Accounted.issue [DecidableEq ι] (h : Accounted issued redeemed log live)
    (hred : redeemed e = none) (hiss : issued e = some key) (i : ι) :
    Accounted issued redeemed (log ++ [e]) (Function.update live i (some key)) := by
  obtain ⟨origin, source, hacc⟩ := h
  have hsilent := hacc.silent hred
  have hold := fun {j} (hj : (live j).isSome) ↦ hacc.source_lt hj
  -- the new event is the source of what slot `i` remembers from now on
  refine ⟨origin, Function.update source i log.length, ⟨hsilent.toRedeemedFrom, ?_, ?_, ?_⟩⟩
  · intro j key' hj
    by_cases hji : j = i
    · subst hji
      rw [Function.update_self] at hj ⊢
      exact ⟨e, List.getElem?_concat_length .., hiss.trans hj⟩
    · rw [Function.update_of_ne hji] at hj ⊢
      exact hsilent.live_traced j key' hj
  · intro j hj k hk hjk
    by_cases hji : j = i <;> by_cases hki : k = i
    · rw [hji, hki]
    · subst hji
      simp only [Set.mem_ofPred_eq, Function.update_of_ne hki] at hk
      rw [Function.update_self, Function.update_of_ne hki] at hjk
      exact absurd hjk.symm (hold hk).ne
    · subst hki
      simp only [Set.mem_ofPred_eq, Function.update_of_ne hji] at hj
      rw [Function.update_self, Function.update_of_ne hji] at hjk
      exact absurd hjk (hold hj).ne
    · simp only [Set.mem_ofPred_eq, Function.update_of_ne hji, Function.update_of_ne hki] at hj hk
      rw [Function.update_of_ne hji, Function.update_of_ne hki] at hjk
      exact hacc.live_injOn hj hk hjk
  · intro j hj k hk
    rw [redemptions_concat_of_none hred] at hk
    by_cases hji : j = i
    · subst hji
      rw [Function.update_self]
      have hlt := hacc.origin_lt hk
      have hkl := lt_length_of_mem_redemptions hk
      omega
    · rw [Function.update_of_ne hji] at hj ⊢
      exact hacc.unspent j hj k hk

/-- A remembered key may be redeemed, once: its slot forgets it. -/
theorem Accounted.redeem [DecidableEq ι] (h : Accounted issued redeemed log live) {i : ι}
    (hlive : live i = some key) (hred : redeemed e = some key) :
    Accounted issued redeemed (log ++ [e]) (Function.update live i none) := by
  obtain ⟨origin, source, hacc⟩ := h
  have hi : (live i).isSome := Option.isSome_iff_exists.mpr ⟨key, hlive⟩
  have hne := fun {j} ↦ ne_of_isSome_update_none live i (j := j)
  -- the origin of the new redemption is the source of the slot that is cleared
  have hnew : ∀ k ∈ redemptions redeemed log,
      Function.update origin log.length (source i) k = origin k := fun k hk ↦
    Function.update_of_ne (lt_length_of_mem_redemptions hk).ne _ _
  refine ⟨Function.update origin log.length (source i), source, ⟨⟨?_, ?_⟩, ?_, ?_, ?_⟩⟩
  · intro k a key' ha hkey
    rcases getElem?_concat_cases ha with hk | ⟨rfl, rfl⟩
    · rw [hnew k ⟨a, hk, Option.isSome_iff_exists.mpr ⟨key', hkey⟩⟩]
      obtain ⟨hlt, a', ha', hiss⟩ := hacc.traced k a key' hk hkey
      exact ⟨hlt, a', getElem?_concat_old ha', hiss⟩
    · rw [Function.update_self]
      obtain rfl := Option.some.inj (hred.symm.trans hkey)
      obtain ⟨a', ha', hiss⟩ := hacc.live_traced i key hlive
      exact ⟨hacc.source_lt hi, a', getElem?_concat_old ha', hiss⟩
  · intro j hj k hk hjk
    rcases redemptions_concat_subset hj with rfl | hj <;>
      rcases redemptions_concat_subset hk with rfl | hk
    · rfl
    · rw [Function.update_self, hnew k hk] at hjk
      exact absurd hjk (hacc.unspent i hi k hk)
    · rw [Function.update_self, hnew j hj] at hjk
      exact absurd hjk.symm (hacc.unspent i hi j hj)
    · rw [hnew j hj, hnew k hk] at hjk
      exact hacc.injOn hj hk hjk
  · intro j key' hj
    obtain ⟨hji, -⟩ := hne (Option.isSome_iff_exists.mpr ⟨key', hj⟩)
    rw [Function.update_of_ne hji] at hj
    obtain ⟨a, ha, hiss⟩ := hacc.live_traced j key' hj
    exact ⟨a, getElem?_concat_old ha, hiss⟩
  · intro j hj k hk hjk
    exact hacc.live_injOn (hne hj).2 (hne hk).2 hjk
  · intro j hj k hk
    obtain ⟨hji, hj⟩ := hne hj
    rcases redemptions_concat_subset hk with rfl | hk
    · rw [Function.update_self]
      exact fun heq ↦ hji (hacc.live_injOn hj hi heq)
    · rw [hnew k hk]
      exact hacc.unspent j hj k hk

end SingleUse

end DistributorMerger
