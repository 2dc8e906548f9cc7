import Mathlib

/-!
# Interleavings

A list whose entries are tagged with the sequence they come from. Reading off the entries with one
tag undoes the interleaving.
-/

namespace DistributorMerger

variable {ι β : Type} [DecidableEq ι]

/-- What the entries with tag `i` carry, in order. -/
def ofTag (i : ι) (l : List (ι × β)) : List β := (l.filter fun x ↦ x.1 = i).map Prod.snd

/-- The list interleaves the sequences: with each tag it carries exactly the sequence of that
tag. -/
def Interleaves (l : List (ι × β)) (sequences : ι → List β) : Prop := ∀ i, ofTag i l = sequences i

@[simp] theorem ofTag_nil (i : ι) : ofTag i ([] : List (ι × β)) = [] := rfl

@[simp] theorem ofTag_append (i : ι) (l l' : List (ι × β)) :
    ofTag i (l ++ l') = ofTag i l ++ ofTag i l' := by
  rw [ofTag, ofTag, ofTag, List.filter_append, List.map_append]

@[simp] theorem ofTag_singleton_self (i : ι) (b : β) : ofTag i [(i, b)] = [b] := by
  simp [ofTag]

theorem ofTag_singleton_of_ne {i j : ι} (h : j ≠ i) (b : β) : ofTag i [(j, b)] = [] := by
  simp [ofTag, h]

end DistributorMerger
