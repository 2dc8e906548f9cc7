import Mathlib

/-!
# Character arrays

A function that writes text gets an array of characters from its caller, of a size that it does not
know. The array is a list here, and a write behind its end or the search for a terminator that is
not there has no result. What an array holds as a string are the characters in front of its first
zero; an array that holds `s` has the form `s ++ nul :: r`, and the lemmas are about this form.
-/

namespace DistributorMerger

/-- An array of characters. -/
abbrev CharBuffer := List Char

/-- The terminating zero. -/
def nul : Char := '\x00'

/-- A text that a C string can hold. -/
abbrev CString := { s : List Char // nul ∉ s }

namespace CharBuffer

/-- The string that the array holds. -/
def string (b : CharBuffer) : List Char := b.takeWhile fun c ↦ c ≠ nul

/-- `strlen`. -/
def strlen (b : CharBuffer) : Option ℕ := if nul ∈ b then some b.string.length else none

/-- The assignment of a character. -/
def put (b : CharBuffer) (i : ℕ) (c : Char) : Option CharBuffer :=
  if i < b.length then some (b.set i c) else none

/-- A string and its terminator written from an offset on. -/
def write (b : CharBuffer) (offset : ℕ) (s : List Char) : Option CharBuffer :=
  if offset + s.length < b.length then
    some (b.take offset ++ (s ++ nul :: b.drop (offset + s.length + 1)))
  else none

section

variable {b b' : CharBuffer} {s t r : List Char} {offset : ℕ}

theorem string_append_nul (h : nul ∉ s) : string (s ++ nul :: r) = s := by
  have hall : ∀ c ∈ s, decide (c ≠ nul) = true := by
    intro c hc
    rw [decide_eq_true_iff]
    exact fun heq ↦ h (heq ▸ hc)
  rw [string, List.takeWhile_append_of_pos hall, List.takeWhile_cons_of_neg (by simp),
    List.append_nil]

theorem strlen_append_nul (h : nul ∉ s) : strlen (s ++ nul :: r) = some s.length := by
  rw [strlen, if_pos (List.mem_append_right _ List.mem_cons_self), string_append_nul h]

theorem write_zero (h : s.length < b.length) :
    b.write 0 s = some (s ++ nul :: b.drop (s.length + 1)) := by
  rw [write, Nat.zero_add, if_pos h, List.take_zero, List.nil_append]

/-- A string written over the terminator of another continues it. -/
theorem write_append (h : s.length + t.length < (s ++ nul :: r).length) :
    write (s ++ nul :: r) s.length t = some (s ++ t ++ nul :: r.drop t.length) := by
  have hdrop : (s ++ nul :: r).drop (s.length + t.length + 1) = r.drop t.length := by
    rw [Nat.add_assoc, List.drop_append, List.drop_eq_nil_of_le (by omega),
      Nat.add_sub_cancel_left, List.nil_append]
    rfl
  rw [write, if_pos h, List.take_left, hdrop, List.append_assoc]

theorem length_write (h : b.write offset t = some b') : b'.length = b.length := by
  obtain ⟨hlt, heq⟩ := Option.ite_none_right_eq_some.mp h
  obtain rfl := Option.some.inj heq
  simp only [List.length_append, List.length_take, List.length_cons, List.length_drop]
  omega

/-- What is written behind a string and its terminator does not change it. -/
theorem exists_eq_of_write (hoffset : s.length < offset)
    (h : write (s ++ nul :: r) offset t = some b') : ∃ r', b' = s ++ nul :: r' := by
  obtain ⟨-, heq⟩ := Option.ite_none_right_eq_some.mp h
  obtain ⟨k, rfl⟩ : ∃ k, offset = s.length + (k + 1) := ⟨offset - s.length - 1, by omega⟩
  rw [List.take_length_add_append, List.take_succ_cons, List.append_assoc] at heq
  exact ⟨_, (Option.some.inj heq).symm⟩

theorem put_append {c d : Char} : put (s ++ c :: r) s.length d = some (s ++ d :: r) := by
  rw [put, if_pos (by simp), List.set_append_right _ _ (Nat.le_refl _), Nat.sub_self,
    List.set_cons_zero]

end

end CharBuffer

end DistributorMerger
