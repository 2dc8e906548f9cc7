import DistributorMerger.Config.Text
import DistributorMerger.Gtp.Fields

/-!
# The files of a file capture session

A pass of `pcapsession_filecapture_run` goes through the entries of its directory and streams those
that it takes for capture files. An entry is taken when the part of its name from the first
occurrence of `.pcap` on is `.pcap`. A name that ends in `.pcap` and contains it a second time
further in front is passed over without a message, and so are the chunks that `chunkpcapfile` writes
under a name that ends in `.pcap` already.

The order of the entries is the one in which `readdir` returns them, and which files
`pcap_open_offline` can open is a parameter.
-/

namespace DistributorMerger

/-! ## Occurrences of a pattern -/

section Occurrences

variable {α : Type*} {a : α} {w l r : List α}

theorem prefix_of_prefix_append_cons (ha : a ∉ w) (h : w <+: l ++ a :: r) : w <+: l := by
  by_cases hlength : w.length ≤ l.length
  · exact List.prefix_of_prefix_length_le h (List.prefix_append l _) hlength
  · have hpre : l ++ [a] <+: w := by
      have hwhole : l ++ [a] <+: l ++ a :: r := ⟨r, (List.append_cons l a r).symm⟩
      exact List.prefix_of_prefix_length_le hwhole h (by rw [List.length_append]; simp; omega)
    exact absurd (hpre.subset (by simp)) ha

theorem infix_append_cons_iff (ha : a ∉ w) : w <:+: l ++ a :: r ↔ w <:+: l ∨ w <:+: r := by
  constructor
  · intro h
    induction l with
    | nil =>
      rcases List.infix_cons_iff.mp h with hpre | hinfix
      · exact Or.inl (prefix_of_prefix_append_cons (l := []) ha hpre).isInfix
      · exact Or.inr hinfix
    | cons b l ih =>
      rw [List.cons_append] at h
      rcases List.infix_cons_iff.mp h with hpre | hinfix
      · exact Or.inl (prefix_of_prefix_append_cons (l := b :: l) ha hpre).isInfix
      · exact (ih hinfix).imp_left fun hl ↦ hl.trans (List.suffix_cons b l).isInfix
  · rintro (hl | hr)
    · exact hl.trans (List.prefix_append l _).isInfix
    · exact hr.trans ((List.suffix_cons a r).trans (List.suffix_append l _)).isInfix

end Occurrences

/-- `strstr`: the text from the first occurrence of a pattern on. -/
def strstr (pattern : Text) : Text → Option Text
  | [] => if pattern = [] then some [] else none
  | c :: s => if pattern <+: c :: s then some (c :: s) else strstr pattern s

theorem suffix_of_strstr {pattern s t : Text} (h : strstr pattern s = some t) : t <:+ s := by
  induction s with
  | nil =>
    obtain ⟨-, heq⟩ := Option.ite_none_right_eq_some.mp h
    obtain rfl := Option.some.inj heq
    exact List.suffix_rfl
  | cons c s ih =>
    rw [strstr] at h
    split at h
    · obtain rfl := Option.some.inj h
      exact List.suffix_rfl
    · exact (ih h).trans (List.suffix_cons c s)

/-- The first occurrence of a pattern whose first character does not come again is at the end of a
text exactly when the rest of the text does not hold the pattern. -/
theorem strstr_append_eq_iff {c : Char} {w : Text} (hc : c ∉ w) (stem : Text) :
    strstr (c :: w) (stem ++ c :: w) = some (c :: w) ↔ ¬ c :: w <:+: stem := by
  induction stem with
  | nil =>
    rw [List.nil_append, strstr, if_pos List.prefix_rfl]
    simp
  | cons b stem ih =>
    rw [List.cons_append, strstr]
    by_cases hpre : c :: w <+: b :: (stem ++ c :: w)
    · -- an occurrence does not reach into the one at the end, as `c` would come again
      have hstem : c :: w <+: b :: stem := by
        obtain ⟨rfl, htail⟩ := List.cons_prefix_cons.mp hpre
        exact List.cons_prefix_cons.mpr ⟨rfl, prefix_of_prefix_append_cons hc htail⟩
      rw [if_pos hpre]
      refine iff_of_false (fun heq ↦ ?_) fun hnot ↦ hnot hstem.isInfix
      have hlength := congrArg List.length (Option.some.inj heq)
      simp at hlength
      omega
    · have hstem : ¬ c :: w <+: b :: stem := fun h ↦ hpre (h.trans (List.prefix_append _ _))
      rw [if_neg hpre, ih, List.infix_cons_iff, not_or]
      exact (and_iff_right hstem).symm

/-! ## One pass over a directory -/

/-- `PCAP_FILE_TYPE`. -/
def pcapFileType : Text := ['.', 'p', 'c', 'a', 'p']

/-- The test that an entry has to pass. -/
def isPcapFile (dName : Text) : Bool :=
  match strstr pcapFileType dName with
  | none => false
  | some pcapExtension => pcapExtension = pcapFileType

/-- `"%s/%s"`, the path of an entry. -/
def filePath (description dName : Text) : Text := description ++ '/' :: dName

/-- What a pass has done. -/
structure FilePass where
  /-- `pcap_file_count`. -/
  pcapFileCount : ℕ := 0
  /-- The files that were handed to `pcap_loop`, in order. -/
  streamed : List Text := []
  deriving DecidableEq, Repr

section Pass

variable (opens : Text → Bool) (description : Text)

/-- The body of the `while` loop. A file that cannot be opened ends the session's thread. -/
def visitEntry (pass : FilePass) (dName : Text) : Except FilePass FilePass :=
  if isPcapFile dName then
    if opens (filePath description dName) then
      .ok ⟨pass.pcapFileCount + 1, pass.streamed ++ [filePath description dName]⟩
    else .error { pass with pcapFileCount := pass.pcapFileCount + 1 }
  else .ok pass

/-- One pass over the entries of the directory. -/
def filePass (listing : List Text) : Except FilePass FilePass :=
  listing.foldlM (visitEntry opens description) {}

end Pass

/-! ## The names that are selected -/

theorem isPcapFile_iff_strstr {dName : Text} :
    isPcapFile dName = true ↔ strstr pcapFileType dName = some pcapFileType := by
  rw [isPcapFile]
  cases strstr pcapFileType dName with
  | none => simp
  | some t => simp

theorem isPcapFile_append_iff (stem : Text) :
    isPcapFile (stem ++ pcapFileType) = true ↔ ¬ pcapFileType <:+: stem :=
  isPcapFile_iff_strstr.trans (strstr_append_eq_iff (by decide) stem)

theorem suffix_of_isPcapFile {dName : Text} (h : isPcapFile dName = true) :
    pcapFileType <:+ dName := suffix_of_strstr (isPcapFile_iff_strstr.mp h)

section Selected

variable {opens : Text → Bool} {description : Text}

theorem foldlM_visitEntry (listing : List Text)
    (h : ∀ dName ∈ listing, isPcapFile dName → opens (filePath description dName)) (n : ℕ)
    (streamed : List Text) :
    listing.foldlM (visitEntry opens description) ⟨n, streamed⟩
      = .ok ⟨n + (listing.filter isPcapFile).length,
        streamed ++ (listing.filter isPcapFile).map (filePath description)⟩ := by
  induction listing generalizing n streamed with
  | nil => simp [pure, Except.pure]
  | cons dName listing ih =>
    have htail := ih fun d hd ↦ h d (List.mem_cons_of_mem dName hd)
    rw [List.foldlM_cons, visitEntry]
    by_cases hselected : isPcapFile dName = true
    · rw [if_pos hselected, if_pos (h dName List.mem_cons_self hselected),
        List.filter_cons_of_pos hselected]
      refine (htail (n + 1) (streamed ++ [filePath description dName])).trans ?_
      rw [List.length_cons, List.map_cons, List.append_assoc, List.singleton_append,
        Nat.add_assoc, Nat.add_comm 1]
    · rw [if_neg hselected, List.filter_cons_of_neg hselected]
      exact htail n streamed

theorem filePath_injective : Function.Injective (filePath description) := by
  intro d d' h
  exact (List.cons.inj (List.append_cancel_left h)).2

/-- A pass streams the files that end in `.pcap` exactly when it selects all of them. -/
theorem streamed_eq_iff (description : Text) (listing : List Text) :
    (listing.filter isPcapFile).map (filePath description)
        = (listing.filter fun dName ↦ pcapFileType <:+ dName).map (filePath description) ↔
      ∀ stem, stem ++ pcapFileType ∈ listing → ¬ pcapFileType <:+: stem := by
  rw [(List.map_injective_iff.mpr filePath_injective).eq_iff]
  constructor
  · intro h stem hstem
    have hmem : stem ++ pcapFileType ∈ listing.filter fun dName ↦ pcapFileType <:+ dName :=
      List.mem_filter.mpr ⟨hstem, by simp⟩
    rw [← h, List.mem_filter] at hmem
    exact (isPcapFile_append_iff stem).mp hmem.2
  · intro h
    refine List.filter_congr fun dName hdName ↦ ?_
    rw [Bool.eq_iff_iff, decide_eq_true_iff]
    refine ⟨suffix_of_isPcapFile, ?_⟩
    rintro ⟨stem, rfl⟩
    exact (isPcapFile_append_iff stem).mpr (h stem hdName)

end Selected

/-! ## The names of chunk files -/

/-- `"%s_%06lu.pcap"`, the name of a chunk file. -/
def chunkDumpFile (outFileName : Text) (chunkNo : UInt64) : Text :=
  outFileName ++ '_' :: ((zeroPadded 6 chunkNo.toNat).toList ++ pcapFileType)

/-- The name of a file in its directory: what stands behind the last slash of its path. -/
def entryName (path : Text) : Text := (path.reverse.takeWhile fun c ↦ c ≠ '/').reverse

theorem isDigit_of_mem_zeroPadded {w n : ℕ} {c : Char} (h : c ∈ (zeroPadded w n).toList) :
    c.isDigit := by
  rw [zeroPadded, String.toList_ofList, List.mem_append] at h
  rcases h with h | h
  · rw [(List.mem_replicate.mp h).2]
    decide
  · exact Nat.isDigit_of_mem_toDigits (by decide) (by decide) h

theorem entryName_append {s t : Text} (h : '/' ∉ t) : entryName (s ++ t) = entryName s ++ t := by
  have hall : ∀ c ∈ t.reverse, decide (c ≠ '/') = true := by
    intro c hc
    rw [decide_eq_true_iff]
    exact fun heq ↦ h (heq ▸ List.mem_reverse.mp hc)
  rw [entryName, List.reverse_append, List.takeWhile_append_of_pos hall, List.reverse_append,
    List.reverse_reverse]
  rfl

/-- The entry of a chunk file is selected unless its own name, without the number, holds `.pcap`. -/
theorem isPcapFile_chunkDumpFile_iff (outFileName : Text) (chunkNo : UInt64) :
    isPcapFile (entryName (chunkDumpFile outFileName chunkNo)) = true ↔
      ¬ pcapFileType <:+: entryName outFileName := by
  have hslash : '/' ∉ '_' :: ((zeroPadded 6 chunkNo.toNat).toList ++ pcapFileType) := by
    rw [List.mem_cons, List.mem_append, not_or, not_or]
    exact ⟨by decide, fun h ↦ absurd (isDigit_of_mem_zeroPadded h) (by decide), by decide⟩
  have hdigits : ¬ pcapFileType <:+: (zeroPadded 6 chunkNo.toNat).toList := by
    intro h
    exact absurd (isDigit_of_mem_zeroPadded (h.subset (a := '.') (by decide))) (by decide)
  rw [chunkDumpFile, entryName_append hslash, ← List.cons_append, ← List.append_assoc,
    isPcapFile_append_iff, infix_append_cons_iff (by decide), not_or]
  exact and_iff_left hdigits

/-- **When a pass selects exactly the capture files.** In a directory whose capture files can all be
opened, one pass streams the files whose name ends in `.pcap`, each once and in order, exactly when
none of these names holds `.pcap` in front of its end too; and the entry of a chunk file is selected
exactly when the last component of `out_file_name` does not hold `.pcap`. -/
theorem filePass_selects_iff (opens : Text → Bool) (description : Text) (listing : List Text)
    (hopens : ∀ dName ∈ listing, pcapFileType <:+ dName → opens (filePath description dName)) :
    ((filePass opens description listing).map FilePass.streamed
        = .ok ((listing.filter fun dName ↦ pcapFileType <:+ dName).map (filePath description)) ↔
      ∀ stem, stem ++ pcapFileType ∈ listing → ¬ pcapFileType <:+: stem) ∧
    ∀ (outFileName : Text) (chunkNo : UInt64),
      isPcapFile (entryName (chunkDumpFile outFileName chunkNo)) = true ↔
        ¬ pcapFileType <:+: entryName outFileName := by
  refine ⟨?_, isPcapFile_chunkDumpFile_iff⟩
  have hpass : filePass opens description listing
      = .ok ⟨0 + (listing.filter isPcapFile).length,
        [] ++ (listing.filter isPcapFile).map (filePath description)⟩ :=
    foldlM_visitEntry listing (fun dName hdName hselected ↦
      hopens dName hdName (suffix_of_isPcapFile hselected)) 0 []
  rw [hpass, ← streamed_eq_iff description, List.nil_append]
  exact ⟨fun h ↦ Except.ok.inj h, fun h ↦ congrArg Except.ok h⟩

/-- A directory with the capture file `a.pcap` and the file `notes`. -/
theorem filePass_selects_one :
    (filePass (fun _ ↦ true) ['d'] ["a.pcap".toList, "notes".toList]).map FilePass.streamed
      = .ok ["d/a.pcap".toList] := by
  refine ((filePass_selects_iff (fun _ ↦ true) ['d'] ["a.pcap".toList, "notes".toList]
    fun _ _ _ ↦ rfl).1.mpr fun stem hstem ↦ ?_).trans (by decide)
  rcases List.mem_cons.mp hstem with heq | hnotes
  · obtain rfl : stem = ['a'] := List.append_cancel_right (heq.trans (by decide))
    decide
  · have hsuffix : pcapFileType <:+ "notes".toList := ⟨stem, List.mem_singleton.mp hnotes⟩
    exact absurd hsuffix (by decide)

/-- The first chunk that is written under the name `a.pcap` is not selected, although it ends in
`.pcap` and can be opened. -/
theorem filePass_skips_chunk :
    chunkDumpFile "a.pcap".toList 0 = "a.pcap_000000.pcap".toList ∧
      (filePass (fun _ ↦ true) ['d'] [entryName (chunkDumpFile "a.pcap".toList 0)]).map
        FilePass.streamed = .ok [] ∧
      (filePass (fun _ ↦ true) ['d'] [entryName (chunkDumpFile "a.pcap".toList 0)]).map
        FilePass.streamed ≠ .ok (([entryName (chunkDumpFile "a.pcap".toList 0)].filter
          fun dName ↦ pcapFileType <:+ dName).map (filePath ['d'])) := by
  refine ⟨by decide, by decide, by decide⟩

end DistributorMerger
