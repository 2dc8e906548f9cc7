import Mathlib

/-!
# Byte memory seen from a base pointer

A C function that receives a pointer and a length may address any offset from that pointer, inside
or past the length. The memory is therefore a total function from offsets to bytes, and the length
stays a separate number that only the code's own tests relate to the offsets it reads.

Multi-byte fields are read in network order. The in-place move copies through a snapshot, which is
what `memmove` guarantees for overlapping regions.
-/

namespace DistributorMerger

/-- The bytes at non-negative offsets from one base pointer. -/
abbrev Memory := ℕ → UInt8

namespace Memory

variable (m : Memory)

/-- The two bytes at offset `i` in network order, as a number. -/
def be16 (i : ℕ) : ℕ := (m i).toNat * 256 + (m (i + 1)).toNat

/-- The four bytes at offset `i` in network order, as an `unsigned int`. -/
def be32 (i : ℕ) : UInt32 :=
  UInt32.ofNat ((m i).toNat * 2 ^ 24 + (m (i + 1)).toNat * 2 ^ 16 + (m (i + 2)).toNat * 2 ^ 8
    + (m (i + 3)).toNat)

/-- The low four bits of the byte at offset `i`. -/
def lowNibble (i : ℕ) : ℕ := (m i).toNat % 16

/-- The high four bits of the byte at offset `i`. -/
def highNibble (i : ℕ) : ℕ := (m i).toNat / 16

/-- The first `n` bytes. -/
def bytes (n : ℕ) : List UInt8 := (List.range n).map m

/-- `memmove(m + target, m + source, n)`. -/
def memmove (target source n : ℕ) : Memory :=
  fun j ↦ if target ≤ j ∧ j < target + n then m (source + (j - target)) else m j

/-- Store an `unsigned int` at offset `i` in network order. -/
def putBe32 (i : ℕ) (v : UInt32) : Memory :=
  fun j ↦ if i ≤ j ∧ j < i + 4 then UInt8.ofNat (v.toNat / 2 ^ (8 * (3 - (j - i)))) else m j

/-- The bytes of `l` stand in memory from offset `base` on. -/
def Holds (base : ℕ) (l : List UInt8) : Prop := ∀ k < l.length, l[k]? = some (m (base + k))

instance (base : ℕ) (l : List UInt8) : Decidable (m.Holds base l) := by
  unfold Holds
  infer_instance

variable {m}

theorem lowNibble_lt (i : ℕ) : m.lowNibble i < 16 := Nat.mod_lt _ (by norm_num)

theorem be16_lt (i : ℕ) : m.be16 i < 2 ^ 16 := by
  have h₁ := (m i).toNat_lt
  have h₂ := (m (i + 1)).toNat_lt
  rw [be16]
  omega

theorem toNat_be32 (i : ℕ) :
    (m.be32 i).toNat = (m i).toNat * 2 ^ 24 + (m (i + 1)).toNat * 2 ^ 16
      + (m (i + 2)).toNat * 2 ^ 8 + (m (i + 3)).toNat := by
  have h₀ := (m i).toNat_lt
  have h₁ := (m (i + 1)).toNat_lt
  have h₂ := (m (i + 2)).toNat_lt
  have h₃ := (m (i + 3)).toNat_lt
  rw [be32, UInt32.toNat_ofNat']
  omega

theorem putBe32_of_not_mem {i j : ℕ} {v : UInt32} (h : ¬ (i ≤ j ∧ j < i + 4)) :
    m.putBe32 i v j = m j := if_neg h

theorem putBe32_apply {i : ℕ} {v : UInt32} {k : ℕ} (hk : k < 4) :
    m.putBe32 i v (i + k) = UInt8.ofNat (v.toNat / 2 ^ (8 * (3 - k))) := by
  rw [putBe32, if_pos (by omega), Nat.add_sub_cancel_left]

/-- A number that was stored reads back. -/
@[simp] theorem be32_putBe32 (i : ℕ) (v : UInt32) : (m.putBe32 i v).be32 i = v := by
  have hv := v.toNat_lt
  refine UInt32.toNat_inj.mp ?_
  have h₀ : m.putBe32 i v i = UInt8.ofNat (v.toNat / 2 ^ 24) :=
    putBe32_apply (k := 0) (by norm_num)
  rw [toNat_be32, h₀, putBe32_apply (by norm_num), putBe32_apply (by norm_num),
    putBe32_apply (by norm_num)]
  simp only [UInt8.toNat_ofNat']
  omega

/-- Four bytes that do not overlap those stored are read as before. -/
theorem be32_putBe32_of_disjoint {i j : ℕ} {v : UInt32} (h : j + 4 ≤ i ∨ i + 4 ≤ j) :
    (m.putBe32 i v).be32 j = m.be32 j := by
  rw [be32, be32, putBe32_of_not_mem (by omega), putBe32_of_not_mem (by omega),
    putBe32_of_not_mem (by omega), putBe32_of_not_mem (by omega)]

@[simp] theorem putBe32_putBe32 (i : ℕ) (v w : UInt32) :
    (m.putBe32 i v).putBe32 i w = m.putBe32 i w := by
  funext j
  unfold putBe32
  split <;> rfl

/-- Storing what is there changes nothing. -/
@[simp] theorem putBe32_be32 (i : ℕ) : m.putBe32 i (m.be32 i) = m := by
  funext j
  by_cases hj : i ≤ j ∧ j < i + 4
  · obtain ⟨k, rfl⟩ := Nat.le.dest hj.1
    have h₀ := (m i).toNat_lt
    have h₁ := (m (i + 1)).toNat_lt
    have h₂ := (m (i + 2)).toNat_lt
    have h₃ := (m (i + 3)).toNat_lt
    rw [putBe32_apply (by omega), toNat_be32]
    refine UInt8.toNat_inj.mp ?_
    rw [UInt8.toNat_ofNat']
    obtain rfl | rfl | rfl | rfl : k = 0 ∨ k = 1 ∨ k = 2 ∨ k = 3 := by omega
    · simp only [Nat.add_zero]
      omega
    · omega
    · omega
    · omega
  · exact putBe32_of_not_mem hj

@[simp] theorem length_bytes (n : ℕ) : (m.bytes n).length = n := by
  rw [bytes, List.length_map, List.length_range]

theorem getElem?_bytes {n k : ℕ} (hk : k < n) : (m.bytes n)[k]? = some (m k) := by
  rw [bytes, List.getElem?_map, List.getElem?_range hk, Option.map_some]

theorem holds_cons {base : ℕ} {b : UInt8} {l : List UInt8} :
    m.Holds base (b :: l) ↔ m base = b ∧ m.Holds (base + 1) l := by
  have hshift : ∀ k, base + 1 + k = base + (k + 1) := by omega
  constructor
  · intro h
    refine ⟨(Option.some.inj (h 0 (by simp))).symm, fun k hk ↦ ?_⟩
    rw [hshift, ← h (k + 1) (by simpa using hk), List.getElem?_cons_succ]
  · rintro ⟨hb, hl⟩ k hk
    cases k with
    | zero => rw [Nat.add_zero, hb, List.getElem?_cons_zero]
    | succ k =>
      rw [List.getElem?_cons_succ, ← hshift]
      exact hl k (by simpa using hk)

theorem holds_append {base : ℕ} {l l' : List UInt8} :
    m.Holds base (l ++ l') ↔ m.Holds base l ∧ m.Holds (base + l.length) l' := by
  induction l generalizing base with
  | nil => simp [Holds]
  | cons b l ih =>
    rw [List.cons_append, holds_cons, holds_cons, ih, List.length_cons, and_assoc,
      show base + 1 + l.length = base + (l.length + 1) from by omega]

/-- The memory that shows the bytes of a list, and zeros behind them. -/
def ofList (l : List UInt8) : Memory := fun i ↦ l.getD i 0

/-- A memory made from a list shows each of its parts where the parts in front of it end. -/
theorem holds_ofList_append (l l' : List UInt8) : (ofList (l ++ l')).Holds l.length l' := by
  intro k hk
  rw [ofList, List.getD_eq_getElem?_getD, List.getElem?_append_right (Nat.le_add_right _ _),
    Nat.add_sub_cancel_left, List.getElem?_eq_getElem hk, Option.getD_some]

theorem be16_of_holds {base n : ℕ} {l : List UInt8} (hn : n < 2 ^ 16)
    (h : m.Holds base (UInt8.ofNat (n / 256) :: UInt8.ofNat (n % 256) :: l)) :
    m.be16 base = n := by
  obtain ⟨h₀, h₁, -⟩ := (holds_cons.trans (and_congr_right fun _ ↦ holds_cons)).mp h
  rw [be16, h₀, h₁, UInt8.toNat_ofNat', UInt8.toNat_ofNat']
  omega

end Memory

end DistributorMerger
