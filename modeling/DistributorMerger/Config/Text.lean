import Mathlib

/-!
# C strings and integer conversions

The configuration is read as text and becomes numbers through `atoi`, a `short` return value and a
`size_t` variable. Each conversion is a function here, so that what it does to a value out of range
is part of the model.
-/

namespace DistributorMerger

/-- A C string, without its terminating zero. -/
abbrev Text := List Char

/-- The value of an `int` returned as a `short`. -/
def toShort (n : ℤ) : ℤ := Int.bmod n (2 ^ 16)

/-- The value of a wider integer converted to `int`. -/
def toInt (n : ℤ) : ℤ := Int.bmod n (2 ^ 32)

/-- The value of a signed integer converted to `size_t`. -/
def toSizeT (n : ℤ) : ℕ := (n % 2 ^ 64).toNat

/-- A text without its first and last character, which are the quotes of a string. -/
def unquote (text : Text) : Text := (text.drop 1).dropLast

/-- `strip_char_from_string`. -/
def stripCharFromString (string : Text) (stripChar : Char) : Text :=
  string.filter fun c ↦ c ≠ stripChar

/-- `isspace`. -/
def isSpace (c : Char) : Bool := c = ' ' ∨ (9 ≤ c.toNat ∧ c.toNat ≤ 13)

/-- The number that the leading digits of a text denote. -/
def digitsValue (s : Text) : ℕ :=
  (s.takeWhile Char.isDigit).foldl (fun n c ↦ n * 10 + (c.toNat - '0'.toNat)) 0

/-- `strtol` to base ten, which stops at the bounds of `long`. -/
def strtol (s : Text) : ℤ :=
  let n : ℤ := match s.dropWhile isSpace with
    | '-' :: s => -digitsValue s
    | '+' :: s => digitsValue s
    | s => digitsValue s
  max (-2 ^ 63) (min (2 ^ 63 - 1) n)

/-- `atoi`: the result of `strtol` converted to `int`. -/
def atoi (s : Text) : ℤ := toInt (strtol s)

example : atoi "-1".toList = -1 := by decide

theorem toShort_of_lt {n : ℕ} (h : n < 2 ^ 15) : toShort n = n := by
  rw [toShort, Int.bmod_def]
  split <;> omega

theorem toShort_bounds (n : ℤ) : -2 ^ 15 ≤ toShort n ∧ toShort n < 2 ^ 15 := by
  rw [toShort, Int.bmod_def]
  split <;> omega

theorem toSizeT_toShort_inj {m n : ℤ} :
    toSizeT (toShort m) = toSizeT (toShort n) ↔ toShort m = toShort n := by
  have hm := toShort_bounds m
  have hn := toShort_bounds n
  rw [toSizeT, toSizeT]
  omega

theorem toInt_of_nonneg {n : ℤ} (h : 0 ≤ n) (hn : n < 2 ^ 31) : toInt n = n := by
  rw [toInt, Int.bmod_def]
  split <;> omega

theorem toInt_neg_or_eq {n : ℤ} (h : 0 ≤ n) (hn : n < 2 ^ 32) : toInt n < 0 ∨ toInt n = n := by
  rw [toInt, Int.bmod_def]
  split <;> omega

theorem toSizeT_of_nonneg {n : ℤ} (h : 0 ≤ n) (hn : n < 2 ^ 64) : (toSizeT n : ℤ) = n := by
  rw [toSizeT]
  omega

end DistributorMerger
