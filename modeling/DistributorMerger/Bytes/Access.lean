import DistributorMerger.Bytes.Memory

/-!
# Computations that record the offsets they read

A computation over a byte memory is a function of the memory. To say which bytes it looks at, the
function also returns the offsets it reads, in the order of the reads. Sequencing concatenates the
offsets, so a bound on all of them is proved along the structure of the computation.

A store ends a computation: it returns the memory that it leaves, and records the offsets that it
writes beside those that it reads.
-/

namespace DistributorMerger

/-- A computation over a memory, with the offsets it reads. -/
def Access (α : Type) := Memory → α × List ℕ

namespace Access

variable {α β : Type} {n : ℕ} {data : Memory}

/-- The value computed from a memory. -/
def value (x : Access α) (data : Memory) : α := (x data).1

/-- The offsets read. -/
def reads (x : Access α) (data : Memory) : List ℕ := (x data).2

instance : Monad Access where
  pure a := fun _ ↦ (a, [])
  bind x f := fun data ↦ ((f (x.value data)).value data,
    x.reads data ++ (f (x.value data)).reads data)

/-- Read the byte at an offset. -/
def byte (i : ℕ) : Access UInt8 := fun data ↦ (data i, [i])

/-- Read two bytes in network order. -/
def be16 (i : ℕ) : Access ℕ := fun data ↦ (data.be16 i, [i, i + 1])

/-- Read a bit field in the low half of a byte. -/
def lowNibble (i : ℕ) : Access ℕ := fun data ↦ (data.lowNibble i, [i])

/-- Read a bit field in the high half of a byte. -/
def highNibble (i : ℕ) : Access ℕ := fun data ↦ (data.highNibble i, [i])

/-- Read four bytes in network order. -/
def be32 (i : ℕ) : Access UInt32 := fun data ↦ (data.be32 i, [i, i + 1, i + 2, i + 3])

/-- Read `l` bytes one after another. -/
def bytes (i l : ℕ) : Access (ℕ → UInt8) :=
  fun data ↦ (fun k ↦ data (i + k), (List.range l).map (i + ·))

/-- The memory as it is. -/
def memory : Access Memory := fun data ↦ (data, [])

/-- Store an `unsigned int` in network order. -/
def putBe32 (i : ℕ) (v : UInt32) : Access Memory :=
  fun data ↦ (data.putBe32 i v, [i, i + 1, i + 2, i + 3])

/-- `memmove`, which reads `l` bytes from `source` on and writes `l` bytes from `target` on. -/
def memmove (target source l : ℕ) : Access Memory :=
  fun data ↦ (data.memmove target source l,
    (List.range l).map (source + ·) ++ (List.range l).map (target + ·))

/-- Every offset read or written lies below `n`. -/
def Below (n : ℕ) (data : Memory) (x : Access α) : Prop := ∀ k ∈ x.reads data, k < n

@[simp] theorem value_pure (a : α) : (pure a : Access α).value data = a := rfl

@[simp] theorem value_bind (x : Access α) (f : α → Access β) :
    (x >>= f).value data = (f (x.value data)).value data := rfl

@[simp] theorem value_byte (i : ℕ) : (byte i).value data = data i := rfl

@[simp] theorem value_be16 (i : ℕ) : (be16 i).value data = data.be16 i := rfl

@[simp] theorem value_lowNibble (i : ℕ) : (lowNibble i).value data = data.lowNibble i := rfl

@[simp] theorem value_highNibble (i : ℕ) : (highNibble i).value data = data.highNibble i := rfl

@[simp] theorem below_pure (a : α) : Below n data (pure a) := by
  intro k hk
  exact absurd hk List.not_mem_nil

@[simp] theorem below_bind {x : Access α} {f : α → Access β} :
    Below n data (x >>= f) ↔ Below n data x ∧ Below n data (f (x.value data)) :=
  List.forall_mem_append

@[simp] theorem below_byte {i : ℕ} : Below n data (byte i) ↔ i < n :=
  List.forall_mem_singleton

@[simp] theorem below_be16 {i : ℕ} : Below n data (be16 i) ↔ i + 1 < n := by
  rw [Below, reads, be16, List.forall_mem_cons, List.forall_mem_singleton]
  omega

@[simp] theorem below_lowNibble {i : ℕ} : Below n data (lowNibble i) ↔ i < n :=
  List.forall_mem_singleton

@[simp] theorem below_highNibble {i : ℕ} : Below n data (highNibble i) ↔ i < n :=
  List.forall_mem_singleton

@[simp] theorem value_be32 (i : ℕ) : (be32 i).value data = data.be32 i := rfl

@[simp] theorem value_bytes (i l : ℕ) : (bytes i l).value data = fun k ↦ data (i + k) := rfl

@[simp] theorem value_memory : memory.value data = data := rfl

@[simp] theorem value_putBe32 (i : ℕ) (v : UInt32) :
    (putBe32 i v).value data = data.putBe32 i v := rfl

@[simp] theorem value_memmove (target source l : ℕ) :
    (memmove target source l).value data = data.memmove target source l := rfl

@[simp] theorem below_memory : Below n data memory := by
  intro k hk
  exact absurd hk List.not_mem_nil

private theorem forall_mem_four {i : ℕ} :
    (∀ k ∈ [i, i + 1, i + 2, i + 3], k < n) ↔ i + 3 < n := by
  rw [List.forall_mem_cons, List.forall_mem_cons, List.forall_mem_cons,
    List.forall_mem_singleton]
  omega

@[simp] theorem below_be32 {i : ℕ} : Below n data (be32 i) ↔ i + 3 < n := forall_mem_four

@[simp] theorem below_putBe32 {i : ℕ} {v : UInt32} :
    Below n data (putBe32 i v) ↔ i + 3 < n := forall_mem_four

private theorem forall_mem_map_range {i l : ℕ} :
    (∀ k ∈ (List.range l).map (i + ·), k < n) ↔ (0 < l → i + l ≤ n) := by
  simp only [List.forall_mem_map, List.mem_range]
  constructor
  · intro h hl
    have hlast := h (l - 1) (by omega)
    omega
  · intro h k hk
    have hend := h (by omega)
    omega

@[simp] theorem below_bytes {i l : ℕ} :
    Below n data (bytes i l) ↔ (0 < l → i + l ≤ n) := forall_mem_map_range

/-- A move stays below `n` when it moves nothing, or when both regions end below `n`. -/
@[simp] theorem below_memmove {target source l : ℕ} :
    Below n data (memmove target source l) ↔ (0 < l → source + l ≤ n ∧ target + l ≤ n) := by
  rw [Below, reads, memmove, List.forall_mem_append, forall_mem_map_range, forall_mem_map_range]
  exact imp_and.symm

/-- A test that returns without reading constrains only the other branch. -/
theorem below_guard {c : Prop} [Decidable c] {a : α} {x : Access α} :
    Below n data (if c then pure a else x) ↔ (¬ c → Below n data x) := by
  by_cases hc : c
  · rw [if_pos hc]
    exact ⟨fun _ h ↦ absurd hc h, fun _ ↦ below_pure a⟩
  · rw [if_neg hc]
    exact ⟨fun h _ ↦ h, fun h ↦ h hc⟩

theorem below_onlyIf {c : Prop} [Decidable c] {a : α} {x : Access α} :
    Below n data (if c then x else pure a) ↔ (c → Below n data x) := by
  by_cases hc : c
  · rw [if_pos hc]
    exact ⟨fun h _ ↦ h, fun h ↦ h hc⟩
  · rw [if_neg hc]
    exact ⟨fun _ h ↦ absurd h hc, fun _ ↦ below_pure a⟩

/-- What a computation returns and what it reads depend on its course at this memory only. -/
theorem value_congr {x y : Access α} (h : x data = y data) : x.value data = y.value data := by
  rw [value, value, h]

theorem below_congr {x y : Access α} (h : x data = y data) :
    Below n data x ↔ Below n data y := by
  rw [Below, Below, reads, reads, h]

theorem value_ite {c : Prop} [Decidable c] {x y : Access α} :
    (if c then x else y).value data = if c then x.value data else y.value data := by
  split <;> rfl

end Access

end DistributorMerger
