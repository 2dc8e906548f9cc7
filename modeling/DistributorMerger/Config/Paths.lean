import DistributorMerger.Bytes.CharBuffer
import DistributorMerger.Config.Properties

/-!
# Paths in the configuration

A path is read from the configuration in three steps, each of which works on the caller's array. The
JSON library prints the value with quotes and with a backslash in front of some characters.
`get_property` copies the text without its first character and then puts a terminator in the place
of the last. `strip_char_from_string` moves the characters other than the backslash to the front of
the array, one by one, and measures the string anew for each of them.

While a string is compacted the array holds the characters kept so far, some that were moved and are
still there, and those that are to come. No zero is written before the end, so the measured length
does not change. The two functions on arrays are shown to do what `getProperty` and
`stripCharFromString` say about texts.
-/

namespace DistributorMerger

open CharBuffer

/-! ## The two functions on the caller's array -/

/-- `get_property` with the caller's array: the result code and the array. There is no result when a
write leaves the array, as the last one does for the empty string. -/
def getPropertyInto (doc : Document) (name : String) (value : CharBuffer) :
    Option (ℤ × CharBuffer) :=
  match doc.findSome? fun element ↦ element.lookup name with
  | none => some (-1, value)
  | some v => do
    let value ← value.write 0 (v.text.drop 1)
    let length ← value.strlen
    (if length = 0 then none else value.put (length - 1) nul).map fun value ↦ (0, value)

/-- The loop of `strip_char_from_string` from `i` and `j` on: the value of `j` at its end, and the
array. -/
def stripLoop (stripChar : Char) : ℕ → ℕ → ℕ → CharBuffer → Option (ℕ × CharBuffer)
  | 0, _, _, _ => none
  | fuel + 1, i, j, string => do
    let length ← string.strlen
    if i < length then
      let c ← string[i]?
      if c ≠ stripChar then
        let string ← string.put j c
        stripLoop stripChar fuel (i + 1) (j + 1) string
      else stripLoop stripChar fuel (i + 1) j string
    else some (j, string)

/-- `strip_char_from_string` on the array. The loop ends within as many iterations as the array has
characters. -/
def stripCharInPlace (string : CharBuffer) (stripChar : Char) : Option CharBuffer := do
  let (j, string) ← stripLoop stripChar (string.length + 1) 0 0 string
  string.put j nul

/-! ## What the library prints -/

/-- A character of a string as the library prints it, if it is neither a backslash nor a control
character. -/
def escapeChar (c : Char) : Text := if c = '/' ∨ c = '"' then ['\\', c] else [c]

/-- `json_object_to_json_string` for a string without backslashes and control characters. -/
def jsonString (s : Text) : Text := '"' :: (s.flatMap escapeChar ++ ['"'])

/-- A character that the library prints by `escapeChar`. -/
def isPlain (c : Char) : Bool := c ≠ '\\' ∧ 0x20 ≤ c.toNat

theorem unquote_jsonString (s : Text) : unquote (jsonString s) = s.flatMap escapeChar := by
  rw [unquote, jsonString, List.drop_one, List.tail_cons, List.dropLast_concat]

private theorem strip_escapeChar {c : Char} (h : c ≠ '\\') :
    stripCharFromString (escapeChar c) '\\' = [c] := by
  rw [escapeChar]
  split
  · rw [stripCharFromString, List.filter_cons_of_neg (by decide),
      List.filter_cons_of_pos (by simpa using h), List.filter_nil]
  · rw [stripCharFromString, List.filter_cons_of_pos (by simpa using h), List.filter_nil]

theorem strip_flatMap_escapeChar {s : Text} (h : ∀ c ∈ s, c ≠ '\\') :
    stripCharFromString (s.flatMap escapeChar) '\\' = s := by
  induction s with
  | nil => rfl
  | cons c s ih =>
    have hhead := strip_escapeChar (h c List.mem_cons_self)
    have htail := ih fun d hd ↦ h d (List.mem_cons_of_mem c hd)
    rw [stripCharFromString] at hhead htail ⊢
    rw [List.flatMap_cons, List.filter_append, hhead, htail, List.singleton_append]

theorem nul_notMem_flatMap_escapeChar {s : Text} (h : ∀ c ∈ s, isPlain c) :
    nul ∉ s.flatMap escapeChar := by
  intro hmem
  obtain ⟨c, hc, hnul⟩ := List.mem_flatMap.mp hmem
  have hplain := h c hc
  rw [escapeChar] at hnul
  split at hnul
  · rename_i hescaped
    rcases hescaped with rfl | rfl
    · exact absurd hnul (by decide)
    · exact absurd hnul (by decide)
  · obtain rfl := List.mem_singleton.mp hnul
    exact absurd hplain (by decide)

/-! ## The array as a text -/

/-- `get_property` leaves the text of the value without its quotes in the array. -/
theorem getPropertyInto_eq {doc : Document} {name : String} {v : ConfigValue} {text : Text}
    {value : CharBuffer} (hv : doc.findSome? (fun element ↦ element.lookup name) = some v)
    {q q' : Char} (htext : v.text = q :: (text ++ [q'])) (hnul : nul ∉ text) (hq : nul ≠ q')
    (hroom : v.text.length ≤ value.length) :
    ∃ r, getPropertyInto doc name value = some ((getProperty doc name value.string).1,
      (getProperty doc name value.string).2 ++ nul :: r) := by
  have hproperty : getProperty doc name value.string = (0, text) := by
    rw [getProperty, hv]
    dsimp only
    rw [htext, unquote, List.drop_one, List.tail_cons, List.dropLast_concat]
  have hdrop : v.text.drop 1 = text ++ [q'] := by rw [htext, List.drop_one, List.tail_cons]
  have hlength : (text ++ [q']).length = text.length + 1 := by
    rw [List.length_append, List.length_singleton]
  rw [htext, List.length_cons, hlength] at hroom
  have hwrite := write_zero (s := text ++ [q']) (b := value) (by omega)
  refine ⟨nul :: value.drop (text.length + 1 + 1), ?_⟩
  rw [hproperty, getPropertyInto, hv]
  dsimp only
  rw [hdrop, hwrite, Option.bind_eq_bind, Option.bind_some, strlen_append_nul (by simp [hnul, hq]),
    Option.bind_eq_bind, Option.bind_some, hlength, if_neg (by omega), Nat.add_sub_cancel,
    List.append_assoc, List.singleton_append, put_append, Option.map_some]

/-! ## Compacting a string in place -/

section Strip

variable {kept moved r : List Char}

private theorem put_kept (c : Char) (rest : List Char) :
    put (kept ++ moved ++ c :: rest) kept.length c
      = some (kept ++ [c] ++ (moved ++ [c]).tail ++ rest) := by
  cases moved with
  | nil => simp [put_append]
  | cons d moved => simp [put_append]

private theorem strlen_kept {rest : List Char} (hkept : nul ∉ kept) (hmoved : nul ∉ moved)
    (hrest : nul ∉ rest) :
    strlen (kept ++ moved ++ (rest ++ nul :: r))
      = some (kept.length + moved.length + rest.length) := by
  rw [← List.append_assoc, strlen_append_nul (by simp [hkept, hmoved, hrest]),
    List.length_append, List.length_append]

/-- The loop from any point on. The induction is on the characters to come; those kept and those
moved stand in front of them. -/
theorem stripLoop_eq (stripChar : Char) (rest : List Char) (fuel : ℕ) (kept moved : List Char)
    (hfuel : rest.length < fuel) (hkept : nul ∉ kept) (hmoved : nul ∉ moved)
    (hrest : nul ∉ rest) :
    ∃ moved', stripLoop stripChar fuel (kept.length + moved.length) kept.length
        (kept ++ moved ++ (rest ++ nul :: r))
      = some ((kept ++ stripCharFromString rest stripChar).length,
        kept ++ stripCharFromString rest stripChar ++ (moved' ++ nul :: r)) := by
  obtain ⟨fuel, rfl⟩ : ∃ k, fuel = k + 1 := ⟨fuel - 1, by omega⟩
  induction rest generalizing fuel kept moved with
  | nil =>
    refine ⟨moved, ?_⟩
    rw [stripLoop, strlen_kept hkept hmoved hrest, Option.bind_eq_bind, Option.bind_some,
      if_neg (by simp), stripCharFromString, List.filter_nil, List.append_nil, List.nil_append,
      List.append_assoc]
  | cons c rest ih =>
    rw [List.length_cons] at hfuel
    rw [List.mem_cons, not_or] at hrest
    obtain ⟨fuel, rfl⟩ : ∃ k, fuel = k + 1 := ⟨fuel - 1, by omega⟩
    have hlt : kept.length + moved.length < kept.length + moved.length + (c :: rest).length := by
      simp
    have hget : (kept ++ moved ++ (c :: rest ++ nul :: r))[kept.length + moved.length]?
        = some c := by
      rw [← List.length_append, List.getElem?_append_right (Nat.le_refl _), Nat.sub_self]
      rfl
    have hnul : nul ∉ c :: rest := by simp [hrest]
    rw [stripLoop, strlen_kept hkept hmoved hnul, Option.bind_eq_bind, Option.bind_some,
      if_pos hlt, hget, Option.bind_eq_bind, Option.bind_some]
    by_cases hc : c = stripChar
    · -- the character stays where it is and counts as moved
      have hstrip : stripCharFromString (c :: rest) stripChar
          = stripCharFromString rest stripChar :=
        List.filter_cons_of_neg (by simpa using hc)
      obtain ⟨moved', hmoved'⟩ := ih kept (moved ++ [c]) hkept
        (by simp [hmoved, hrest.1]) hrest.2 fuel (by omega)
      refine ⟨moved', ?_⟩
      rw [if_neg (not_not.mpr hc), hstrip, ← hmoved', List.length_append, List.length_singleton,
        Nat.add_assoc]
      simp
    · -- the character is copied over the first one that was moved, which is itself at first
      have hstrip : stripCharFromString (c :: rest) stripChar
          = c :: stripCharFromString rest stripChar :=
        List.filter_cons_of_pos (by simpa using hc)
      have htail : (moved ++ [c]).tail.length = moved.length := by simp
      obtain ⟨moved', hmoved'⟩ := ih (kept ++ [c]) (moved ++ [c]).tail
        (by simp [hkept, hrest.1])
        (fun hmem ↦ by simpa [hmoved, hrest.1] using List.mem_of_mem_tail hmem) hrest.2 fuel
        (by omega)
      refine ⟨moved', ?_⟩
      rw [if_pos hc, List.cons_append, put_kept, Option.bind_eq_bind, Option.bind_some, hstrip]
      rw [htail, List.length_append, List.length_singleton] at hmoved'
      rw [Nat.add_right_comm, hmoved']
      simp

/-- `strip_char_from_string` leaves the string without the character in the array. -/
theorem stripCharInPlace_eq {s : List Char} (hs : nul ∉ s) (stripChar : Char) :
    ∃ r', stripCharInPlace (s ++ nul :: r) stripChar
      = some (stripCharFromString s stripChar ++ nul :: r') := by
  obtain ⟨moved, hloop⟩ : ∃ moved,
      stripLoop stripChar ((s ++ nul :: r).length + 1) 0 0 (s ++ nul :: r)
        = some ((stripCharFromString s stripChar).length,
          stripCharFromString s stripChar ++ (moved ++ nul :: r)) :=
    stripLoop_eq stripChar s _ [] [] (by rw [List.length_append]; omega) List.not_mem_nil
      List.not_mem_nil hs
  obtain ⟨d, r', hr'⟩ : ∃ d r', moved ++ nul :: r = d :: r' :=
    List.exists_cons_of_ne_nil (List.append_ne_nil_of_right_ne_nil _ (List.cons_ne_nil _ _))
  refine ⟨r', ?_⟩
  rw [stripCharInPlace, hloop, Option.bind_eq_bind, Option.bind_some, hr']
  exact put_append

end Strip

/-! ## The round trip -/

/-- **Paths survive the configuration.** A path without backslashes and control characters that is
stored as a string comes back from `get_property` and `strip_char_from_string` as it is, if the
caller's array has room for the text that the library prints. -/
theorem path_survives_configuration {doc : Document} {name : String} {v : ConfigValue}
    {path : Text} {buffer : CharBuffer} (hpath : ∀ c ∈ path, isPlain c)
    (hv : doc.findSome? (fun element ↦ element.lookup name) = some v)
    (hjson : v.text = jsonString path) (hroom : v.text.length ≤ buffer.length) :
    ∃ value stripped, getPropertyInto doc name buffer = some (0, value) ∧
      stripCharInPlace value '\\' = some stripped ∧ stripped.string = path := by
  have hnul := nul_notMem_flatMap_escapeChar hpath
  have hbackslash : ∀ c ∈ path, c ≠ '\\' := by
    intro c hc
    have hplain := hpath c hc
    rw [isPlain, decide_eq_true_iff] at hplain
    exact hplain.1
  have hnulpath : nul ∉ path := fun hmem ↦ absurd (hpath _ hmem) (by decide)
  obtain ⟨r, hget⟩ := getPropertyInto_eq hv hjson hnul (by decide) hroom
  rw [getProperty, hv] at hget
  dsimp only at hget
  rw [hjson, unquote_jsonString] at hget
  obtain ⟨r', hstrip⟩ := stripCharInPlace_eq hnul '\\' (r := r)
  rw [strip_flatMap_escapeChar hbackslash] at hstrip
  exact ⟨_, _, hget, hstrip, string_append_nul hnulpath⟩

/-- The path `/a"b` in an array of ten characters. -/
theorem path_survives_configuration_quote :
    ∃ value stripped,
      getPropertyInto [[("output_path", { text := jsonString ['/', 'a', '"', 'b'] })]]
        "output_path" (List.replicate 10 'x') = some (0, value) ∧
      stripCharInPlace value '\\' = some stripped ∧ stripped.string = ['/', 'a', '"', 'b'] :=
  path_survives_configuration (List.all_eq_true.mp (by decide)) rfl rfl (by decide)

end DistributorMerger
