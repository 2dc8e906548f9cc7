import DistributorMerger.Bytes.CharBuffer
import DistributorMerger.Config.Properties

/-!
# Printing the configuration

`print_filter_config` prints one line for each element of the configuration into a buffer of its
caller. It writes a line at an offset and then adds the length of the whole string in the buffer to
the offset, not the length of the line. The first two lines come to stand one behind the other. The
third is written behind the terminator of the second with a gap as long as the first, and the string
in the buffer stays as it is from there on.

The texts of the elements come from the JSON library and are a parameter. The callers pass a local
array of 65536 characters, so the sizes that can occur are in the range of the `int` offset.
-/

namespace DistributorMerger

open CharBuffer

/-- `"criteria:%d=%s\n\n"`. -/
def criteriaText (i : ℕ) (json : CString) : Text :=
  ("criteria:" ++ toString i ++ "=" ++ String.ofList json ++ "\n\n").toList

/-- The state of the loop of `print_filter_config`. -/
structure Printing where
  /-- The caller's buffer. -/
  buffer : CharBuffer
  /-- `offset`. -/
  offset : ℤ := 0

section Print

variable (toJson : ConfigElement → CString)

/-- The line that is printed for an element and its index. -/
def criteriaLine (x : ConfigElement × ℕ) : Text := criteriaText x.2 (toJson x.1)

/-- The body of the loop of `print_filter_config`; a negative offset is in front of the buffer. -/
def printCriteria (s : Printing) (x : ConfigElement × ℕ) : Option Printing :=
  if s.offset < 0 then none
  else do
    let buffer ← s.buffer.write s.offset.toNat (criteriaLine toJson x)
    let length ← buffer.strlen
    some ⟨buffer, toInt (s.offset + length)⟩

/-- `print_filter_config` for a buffer that is there: the result and the buffer. There is no result
when a write leaves the buffer. -/
def printFilterConfig (configDef : Document) (buffer : CharBuffer) : Option (ℤ × CharBuffer) :=
  (configDef.zipIdx.foldlM (printCriteria toJson) ⟨buffer, 0⟩).map fun s ↦ (0, s.buffer)

/-- The lines of all elements, one behind the other. -/
def criteriaLines (configDef : Document) : Text :=
  configDef.zipIdx.flatMap (criteriaLine toJson)

/-- The whole configuration is printed: the buffer holds the lines of all elements, and nothing
behind their terminator is changed. -/
def PrintsAll (configDef : Document) (buffer : CharBuffer) : Prop :=
  ∃ b, printFilterConfig toJson configDef buffer = some (0, b) ∧
    b.string = criteriaLines toJson configDef ∧
    b.drop ((criteriaLines toJson configDef).length + 1)
      = buffer.drop ((criteriaLines toJson configDef).length + 1)

end Print

section Lines

variable {toJson : ConfigElement → CString} {buffer : CharBuffer} {x x₀ x₁ : ConfigElement × ℕ}
  {s : List Char}

/-! ## One line -/

private theorem nul_notMem_toString (n : ℕ) : nul ∉ (toString n).toList := by
  intro hmem
  rw [show (toString n).toList = Nat.toDigits 10 n from Nat.toList_repr] at hmem
  exact absurd (Nat.isDigit_of_mem_toDigits (by decide) (by decide) hmem) (by decide)

theorem nul_notMem_criteriaLine : nul ∉ criteriaLine toJson x := by
  unfold criteriaLine criteriaText
  simp only [String.toList_append, String.toList_ofList, List.mem_append, not_or]
  exact ⟨⟨⟨⟨by decide, nul_notMem_toString _⟩, by decide⟩, (toJson x.1).property⟩, by decide⟩

theorem length_criteriaLine_pos (toJson : ConfigElement → CString) (x : ConfigElement × ℕ) :
    0 < (criteriaLine toJson x).length := by
  unfold criteriaLine criteriaText
  rw [String.toList_append, List.length_append]
  exact Nat.add_pos_right _ (by decide)

theorem printCriteria_zero (h : (criteriaLine toJson x).length < buffer.length) :
    printCriteria toJson ⟨buffer, 0⟩ x
      = some ⟨criteriaLine toJson x ++ nul :: buffer.drop ((criteriaLine toJson x).length + 1),
        toInt (criteriaLine toJson x).length⟩ := by
  simp [printCriteria, write_zero h, strlen_append_nul nul_notMem_criteriaLine]

theorem printCriteria_append {r : List Char} (hs : nul ∉ s)
    (h : s.length + (criteriaLine toJson x).length < (s ++ nul :: r).length) :
    printCriteria toJson ⟨s ++ nul :: r, s.length⟩ x
      = some ⟨s ++ criteriaLine toJson x ++ nul :: r.drop (criteriaLine toJson x).length,
        toInt (s.length + (s.length + (criteriaLine toJson x).length))⟩ := by
  have hline : nul ∉ s ++ criteriaLine toJson x := by
    rw [List.mem_append, not_or]
    exact ⟨hs, nul_notMem_criteriaLine⟩
  have hnonneg : ¬ (s.length : ℤ) < 0 := by omega
  simp only [printCriteria, hnonneg, if_false, Int.toNat_natCast, write_append h,
    Option.bind_eq_bind, Option.bind_some, strlen_append_nul hline, List.length_append]
  norm_cast

/-! ## The third line and those behind it -/

/-- The offset has left the string `s` in the buffer behind. -/
structure Beyond (s : List Char) (p : Printing) : Prop where
  /-- The buffer holds the string. -/
  holds : ∃ r, p.buffer = s ++ nul :: r
  /-- The next line, if it can be written at all, is written behind the terminator. -/
  offset : p.offset < 0 ∨ s.length < p.offset
  /-- The buffer's size is in the range of an `int`. -/
  size : p.buffer.length < 2 ^ 31

theorem Beyond.step (hs : nul ∉ s) {p p' : Printing} (h : Beyond s p)
    (hp : printCriteria toJson p x = some p') : Beyond s p' := by
  obtain ⟨buffer, offset⟩ := p
  obtain ⟨⟨r, hbuffer⟩, hoffset, hsize⟩ := h
  dsimp only at hbuffer
  subst hbuffer
  obtain ⟨hnonneg, hdo⟩ := Option.ite_none_left_eq_some.mp hp
  obtain ⟨buffer, hwrite, hrest⟩ := Option.bind_eq_some_iff.mp hdo
  dsimp only at hoffset hsize hnonneg hwrite
  obtain ⟨r', rfl⟩ := exists_eq_of_write (by omega) hwrite
  have hlength := length_write hwrite
  have hfits := (Option.ite_none_right_eq_some.mp hwrite).1
  rw [strlen_append_nul hs, Option.bind_eq_bind, Option.bind_some] at hrest
  obtain rfl := Option.some.inj hrest
  refine ⟨⟨r', rfl⟩, ?_, ?_⟩
  · dsimp only
    rw [List.length_append, List.length_cons] at hsize hfits
    rcases toInt_neg_or_eq (n := offset + s.length) (by omega) (by omega) with hneg | heq
    · exact .inl hneg
    · exact .inr (by omega)
  · rw [hlength]
    exact hsize

theorem Beyond.foldlM (hs : nul ∉ s) (xs : List (ConfigElement × ℕ)) {p p' : Printing}
    (h : Beyond s p) (hp : xs.foldlM (printCriteria toJson) p = some p') : Beyond s p' := by
  induction xs generalizing p with
  | nil =>
    obtain rfl := Option.some.inj hp
    exact h
  | cons x xs ih =>
    rw [List.foldlM_cons] at hp
    obtain ⟨p₁, hp₁, hrest⟩ := Option.bind_eq_some_iff.mp hp
    exact ih (h.step hs hp₁) hrest

/-! ## The whole configuration -/

/-- `xs` are printed as they should be. -/
private def Prints (toJson : ConfigElement → CString) (xs : List (ConfigElement × ℕ))
    (buffer : CharBuffer) : Prop :=
  ∃ p, xs.foldlM (printCriteria toJson) ⟨buffer, 0⟩ = some p ∧
    p.buffer.string = xs.flatMap (criteriaLine toJson) ∧
    p.buffer.drop ((xs.flatMap (criteriaLine toJson)).length + 1)
      = buffer.drop ((xs.flatMap (criteriaLine toJson)).length + 1)

private theorem prints_nil (hfits : 0 < buffer.length) :
    Prints toJson [] buffer ↔ buffer.head? = some nul := by
  obtain ⟨c, r, rfl⟩ : ∃ c r, buffer = c :: r := List.exists_cons_of_length_pos hfits
  constructor
  · rintro ⟨p, hp, hstring, -⟩
    obtain rfl := Option.some.inj hp
    by_contra hc
    have hne : c ≠ nul := fun heq ↦ hc (by rw [heq]; rfl)
    rw [string, List.takeWhile_cons_of_pos (by simpa using hne)] at hstring
    exact absurd hstring (List.cons_ne_nil _ _)
  · intro hhead
    obtain rfl : c = nul := Option.some.inj hhead
    exact ⟨⟨nul :: r, 0⟩, rfl, string_append_nul (s := []) List.not_mem_nil, rfl⟩

/-- Lines that stand one behind the other, with the rest of the buffer behind their terminator. -/
private theorem prints_of_eq {xs : List (ConfigElement × ℕ)} {lines : List Char}
    (hlines : xs.flatMap (criteriaLine toJson) = lines) (hnul : nul ∉ lines)
    (h : ∃ offset, xs.foldlM (printCriteria toJson) ⟨buffer, 0⟩
      = some ⟨lines ++ nul :: buffer.drop (lines.length + 1), offset⟩) :
    Prints toJson xs buffer := by
  obtain ⟨offset, hfold⟩ := h
  refine ⟨_, hfold, ?_, ?_⟩
  · rw [hlines, string_append_nul hnul]
  · rw [hlines, List.append_cons, List.drop_left' (by simp)]

private theorem printCriteria_second
    (hfits : (criteriaLine toJson x₀).length + (criteriaLine toJson x₁).length < buffer.length)
    (hsize : buffer.length < 2 ^ 31) (xs : List (ConfigElement × ℕ)) :
    (x₀ :: x₁ :: xs).foldlM (printCriteria toJson) ⟨buffer, 0⟩
      = xs.foldlM (printCriteria toJson)
        ⟨criteriaLine toJson x₀ ++ criteriaLine toJson x₁ ++ nul :: buffer.drop
            ((criteriaLine toJson x₀).length + (criteriaLine toJson x₁).length + 1),
          toInt ((criteriaLine toJson x₀).length
            + ((criteriaLine toJson x₀).length + (criteriaLine toJson x₁).length))⟩ := by
  have hroom : (criteriaLine toJson x₀).length + (criteriaLine toJson x₁).length
      < (criteriaLine toJson x₀
        ++ nul :: buffer.drop ((criteriaLine toJson x₀).length + 1)).length := by
    rw [List.length_append, List.length_cons, List.length_drop]
    omega
  have hint : toInt (criteriaLine toJson x₀).length = (criteriaLine toJson x₀).length :=
    toInt_of_nonneg (by omega) (by omega)
  rw [List.foldlM_cons, printCriteria_zero (by omega), Option.bind_eq_bind, Option.bind_some,
    hint, List.foldlM_cons, printCriteria_append nul_notMem_criteriaLine hroom,
    Option.bind_eq_bind, Option.bind_some, List.drop_drop, Nat.add_right_comm]

/-- One or two elements: their lines are printed. -/
private theorem prints_of_length_le_two {xs : List (ConfigElement × ℕ)} (hpos : 0 < xs.length)
    (htwo : xs.length ≤ 2) (hfits : (xs.flatMap (criteriaLine toJson)).length < buffer.length)
    (hsize : buffer.length < 2 ^ 31) : Prints toJson xs buffer := by
  cases xs with
  | nil => exact absurd hpos (Nat.lt_irrefl 0)
  | cons x₀ xs =>
    cases xs with
    | nil =>
      rw [List.flatMap_singleton] at hfits
      refine prints_of_eq (List.flatMap_singleton _ _) nul_notMem_criteriaLine ?_
      rw [List.foldlM_cons, printCriteria_zero hfits]
      exact ⟨_, rfl⟩
    | cons x₁ xs =>
      obtain rfl : xs = [] := by
        rw [List.length_cons, List.length_cons] at htwo
        exact List.eq_nil_of_length_eq_zero (by omega)
      have hlines : [x₀, x₁].flatMap (criteriaLine toJson)
          = criteriaLine toJson x₀ ++ criteriaLine toJson x₁ := by
        rw [List.flatMap_cons, List.flatMap_singleton]
      rw [hlines, List.length_append] at hfits
      refine prints_of_eq hlines ?_ ?_
      · rw [List.mem_append, not_or]
        exact ⟨nul_notMem_criteriaLine, nul_notMem_criteriaLine⟩
      · rw [printCriteria_second hfits hsize, List.length_append]
        exact ⟨_, rfl⟩

/-- From three elements on the string in the buffer ends behind the second line. -/
private theorem not_prints_of_three_le {xs : List (ConfigElement × ℕ)} (hthree : 3 ≤ xs.length)
    (hfits : (xs.flatMap (criteriaLine toJson)).length < buffer.length)
    (hsize : buffer.length < 2 ^ 31) : ¬ Prints toJson xs buffer := by
  obtain ⟨x₀, x₁, x, xs, rfl⟩ : ∃ x₀ x₁ x xs', xs = x₀ :: x₁ :: x :: xs' := by
    match xs, hthree with
    | x₀ :: x₁ :: x :: xs, _ => exact ⟨x₀, x₁, x, xs, rfl⟩
  rintro ⟨p, hp, hstring, -⟩
  rw [List.flatMap_cons, List.flatMap_cons, ← List.append_assoc] at hstring hfits
  rw [List.length_append, List.length_append] at hfits
  -- The second line already leaves the position beyond the text, where no later line is read.
  rw [printCriteria_second (by omega) hsize] at hp
  have hpos := length_criteriaLine_pos toJson x₀
  have hnul : nul ∉ criteriaLine toJson x₀ ++ criteriaLine toJson x₁ := by
    rw [List.mem_append, not_or]
    exact ⟨nul_notMem_criteriaLine, nul_notMem_criteriaLine⟩
  have hbeyond : Beyond (criteriaLine toJson x₀ ++ criteriaLine toJson x₁)
      ⟨criteriaLine toJson x₀ ++ criteriaLine toJson x₁ ++ nul :: buffer.drop
          ((criteriaLine toJson x₀).length + (criteriaLine toJson x₁).length + 1),
        toInt ((criteriaLine toJson x₀).length
          + ((criteriaLine toJson x₀).length + (criteriaLine toJson x₁).length))⟩ := by
    refine ⟨⟨_, rfl⟩, ?_, ?_⟩
    · dsimp only
      rw [List.length_append]
      rcases toInt_neg_or_eq (n := (criteriaLine toJson x₀).length
        + ((criteriaLine toJson x₀).length + (criteriaLine toJson x₁).length)) (by omega)
        (by omega) with hneg | heq
      · exact .inl hneg
      · exact .inr (by omega)
    · dsimp only
      rw [List.length_append, List.length_append, List.length_cons, List.length_drop]
      omega
  obtain ⟨r, hr⟩ := (hbeyond.foldlM hnul (x :: xs) hp).holds
  rw [hr, string_append_nul hnul] at hstring
  have hrest := List.self_eq_append_right.mp hstring
  rw [List.flatMap_cons] at hrest
  have hline := length_criteriaLine_pos toJson x
  rw [(List.append_eq_nil_iff.mp hrest).1] at hline
  exact Nat.lt_irrefl 0 hline

private theorem printsAll_iff_prints {configDef : Document} :
    PrintsAll toJson configDef buffer ↔ Prints toJson configDef.zipIdx buffer := by
  constructor
  · rintro ⟨b, hb, hrest⟩
    obtain ⟨p, hp, heq⟩ := Option.map_eq_some_iff.mp hb
    obtain rfl := (Prod.mk.inj heq).2
    exact ⟨p, hp, hrest⟩
  · rintro ⟨p, hp, hrest⟩
    exact ⟨p.buffer, by rw [printFilterConfig, hp]; rfl, hrest⟩

end Lines

/-- **When the whole configuration is printed.** For a configuration whose lines fit the buffer
together, the buffer holds all of them and nothing behind them is changed exactly when there are
one or two elements, or when there is none and the buffer held the empty string before. -/
theorem printsAll_iff (toJson : ConfigElement → CString) (configDef : Document)
    (buffer : CharBuffer) (hfits : (criteriaLines toJson configDef).length < buffer.length)
    (hsize : buffer.length < 2 ^ 31) :
    PrintsAll toJson configDef buffer ↔
      configDef.length = 1 ∨ configDef.length = 2 ∨
        configDef.length = 0 ∧ buffer.head? = some nul := by
  rw [printsAll_iff_prints]
  by_cases hzero : configDef.length = 0
  · obtain rfl := List.eq_nil_of_length_eq_zero hzero
    rw [List.zipIdx_nil, prints_nil (by omega)]
    simp
  · have hlength : configDef.zipIdx.length = configDef.length := List.length_zipIdx
    by_cases htwo : configDef.length ≤ 2
    · exact iff_of_true (prints_of_length_le_two (by omega) (by omega) hfits hsize) (by omega)
    · exact iff_of_false (not_prints_of_three_le (by omega) hfits hsize) (by omega)

/-- What the library prints for an element without members. -/
def emptyObject : CString := ⟨['{', ' ', '}'], by decide⟩

/-- Two elements in a buffer that held something else. -/
theorem printsAll_two :
    PrintsAll (fun _ ↦ emptyObject) [[], []] (List.replicate 64 'x') :=
  (printsAll_iff (fun _ ↦ emptyObject) [[], []] (List.replicate 64 'x') (by decide)
    (by decide)).mpr (Or.inr (Or.inl rfl))

/-- The line of a third element does not become part of the string, although there is room. -/
theorem not_printsAll_three :
    (criteriaLines (fun _ ↦ emptyObject) [[], [], []]).length < 80 ∧
      ¬ PrintsAll (fun _ ↦ emptyObject) [[], [], []] (List.replicate 80 'x') := by
  refine ⟨by decide, fun h ↦ ?_⟩
  exact not_prints_of_three_le (by decide) (by decide) (by decide) (printsAll_iff_prints.mp h)

end DistributorMerger
