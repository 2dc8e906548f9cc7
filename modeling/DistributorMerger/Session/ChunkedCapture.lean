import Mathlib
import DistributorMerger.Session.FileSelection
import DistributorMerger.Filter.Chunkpcapfile

/-!
# Capturing the chunks of a file

`chunkpcapfile` cuts a capture file into chunks, and a file capture session streams the capture
files of a directory. A directory with the chunks in it stands for the file that was cut: a pass
streams every packet of that file once, and if the directory is listed by name, in the order of the
file.

The names are what this rests on. The number of a chunk is padded to six digits, so among the first
million chunks the order of the names is that of the numbers; different chunks never share a name,
so none is overwritten by another.
-/

namespace DistributorMerger

/-! ## Numbers and their texts -/

section Digits

variable {c c' : Char} {l l' r r' : List Char}

theorem ofDigitChars_cons_eq (c : Char) (l : List Char) :
    Nat.ofDigitChars 10 (c :: l) 0
      = 10 ^ l.length * (c.toNat - '0'.toNat) + Nat.ofDigitChars 10 l 0 := by
  rw [Nat.ofDigitChars_cons, Nat.ofDigitChars_eq_ofDigitChars_zero, Nat.mul_zero, Nat.zero_add]

theorem toNat_of_isDigit (h : c.isDigit = true) : 48 ≤ c.toNat ∧ c.toNat ≤ 57 :=
  Char.isDigit_iff_toNat.mp h

theorem ofDigitChars_lt (h : ∀ c ∈ l, c.isDigit = true) :
    Nat.ofDigitChars 10 l 0 < 10 ^ l.length := by
  induction l with
  | nil => decide
  | cons c l ih =>
    have hc := toNat_of_isDigit (h c List.mem_cons_self)
    have hl := ih fun c' hc' ↦ h c' (List.mem_cons_of_mem _ hc')
    rw [ofDigitChars_cons_eq, List.length_cons, Nat.pow_succ]
    have hdigit : c.toNat - '0'.toNat ≤ 9 := by
      rw [show '0'.toNat = 48 from rfl]
      omega
    have hmul := Nat.mul_le_mul_left (10 ^ l.length) hdigit
    omega

/-- Numbers written with equally many digits are in the order of their texts. -/
theorem append_lt_append_of_digits (h : ∀ c ∈ l, c.isDigit = true)
    (h' : ∀ c ∈ l', c.isDigit = true) (hlength : l.length = l'.length)
    (hlt : Nat.ofDigitChars 10 l 0 < Nat.ofDigitChars 10 l' 0) : l ++ r < l' ++ r' := by
  induction l generalizing l' with
  | nil =>
    rw [List.length_nil, eq_comm, List.length_eq_zero_iff] at hlength
    rw [hlength] at hlt
    exact absurd hlt (lt_irrefl _)
  | cons c l ih =>
    cases l' with
    | nil => cases hlength
    | cons c' l' =>
      have hlength' : l.length = l'.length := Nat.succ.inj hlength
      have hl := ofDigitChars_lt fun d hd ↦ h d (List.mem_cons_of_mem _ hd)
      have hl' := ofDigitChars_lt fun d hd ↦ h' d (List.mem_cons_of_mem _ hd)
      rw [ofDigitChars_cons_eq, ofDigitChars_cons_eq, ← hlength'] at hlt
      rw [← hlength'] at hl'
      rw [List.cons_append, List.cons_append, List.cons_lt_cons_iff]
      by_cases hcc : c = c'
      · refine .inr ⟨hcc, ih (fun d hd ↦ h d (List.mem_cons_of_mem _ hd))
          (fun d hd ↦ h' d (List.mem_cons_of_mem _ hd)) hlength' ?_⟩
        rw [hcc] at hlt
        exact Nat.lt_of_add_lt_add_left hlt
      · -- the first digit decides, as the digits behind it amount to less than one of it
        refine .inl (lt_of_le_of_ne ?_ hcc)
        have hc := toNat_of_isDigit (h c List.mem_cons_self)
        have hc' := toNat_of_isDigit (h' c' List.mem_cons_self)
        rw [show '0'.toNat = 48 from rfl] at hlt
        refine not_lt.mp fun hgt ↦ ?_
        have hgt' : c'.toNat < c.toNat := hgt
        have hmul := Nat.mul_le_mul_left (10 ^ l.length)
          (show c'.toNat - 48 + 1 ≤ c.toNat - 48 by omega)
        rw [Nat.mul_add, Nat.mul_one] at hmul
        omega

end Digits

/-! ## The names of chunks -/

/-- The entry of a chunk in its directory. -/
def chunkEntry (outFileName : Text) (chunkNo : UInt64) : Text :=
  entryName (chunkDumpFile outFileName chunkNo)

section Names

variable {outFileName : Text}

theorem chunkEntry_eq (outFileName : Text) (n : UInt64) :
    chunkEntry outFileName n
      = (entryName outFileName ++ ['_']) ++ ((zeroPadded 6 n.toNat).toList ++ pcapFileType) := by
  have hslash : '/' ∉ '_' :: ((zeroPadded 6 n.toNat).toList ++ pcapFileType) := by
    rw [List.mem_cons, List.mem_append, not_or, not_or]
    exact ⟨by decide, fun h ↦ absurd (isDigit_of_mem_zeroPadded h) (by decide), by decide⟩
  rw [chunkEntry, chunkDumpFile, entryName_append hslash, List.append_assoc, List.singleton_append]

theorem ofDigitChars_zeroPadded (w n : ℕ) : Nat.ofDigitChars 10 (zeroPadded w n).toList 0 = n := by
  rw [zeroPadded, String.toList_ofList, Nat.ofDigitChars_append, Nat.ofDigitChars_replicate_zero,
    Nat.mul_zero, Nat.ofDigitChars_ten_toDigits]

theorem length_zeroPadded {w n : ℕ} (hw : 0 < w) (hn : n < 10 ^ w) :
    (zeroPadded w n).toList.length = w := by
  have hlength := (Nat.length_toDigits_le_iff (by norm_num) hw).mpr hn
  rw [zeroPadded, String.toList_ofList, List.length_append, List.length_replicate]
  omega

theorem chunkEntry_injective (outFileName : Text) :
    Function.Injective (chunkEntry outFileName) := by
  intro m n h
  rw [chunkEntry_eq, chunkEntry_eq] at h
  have hdigits := List.append_cancel_right (List.append_cancel_left h)
  have hvalue := congrArg (Nat.ofDigitChars 10 · 0) hdigits
  rw [ofDigitChars_zeroPadded, ofDigitChars_zeroPadded] at hvalue
  exact UInt64.toNat_inj.mp hvalue

/-- The names of the first million chunks are in the order of their numbers. -/
theorem chunkEntry_lt {m n : UInt64} (hlt : m.toNat < n.toNat) (hn : n.toNat < 10 ^ 6) :
    chunkEntry outFileName m < chunkEntry outFileName n := by
  rw [chunkEntry_eq, chunkEntry_eq]
  refine List.append_left_lt (append_lt_append_of_digits (fun c hc ↦ isDigit_of_mem_zeroPadded hc)
    (fun c hc ↦ isDigit_of_mem_zeroPadded hc) ?_ ?_)
  · rw [length_zeroPadded (by norm_num) (hlt.trans hn), length_zeroPadded (by norm_num) hn]
  · rwa [ofDigitChars_zeroPadded, ofDigitChars_zeroPadded]

end Names

theorem map_chunkEntry_eq (outFileName : Text) {files : List ChunkFile}
    (hnumbers : files.map ChunkFile.chunkNo = (List.range files.length).map UInt64.ofNat) :
    files.map (fun f ↦ chunkEntry outFileName f.chunkNo)
      = (List.range files.length).map fun k ↦ chunkEntry outFileName (UInt64.ofNat k) := by
  have hentries := congrArg (List.map (chunkEntry outFileName)) hnumbers
  rwa [List.map_map, List.map_map] at hentries

section Selection

variable {outFileName : Text} {files : List ChunkFile}

theorem nodup_chunkEntries
    (hnumbers : files.map ChunkFile.chunkNo = (List.range files.length).map UInt64.ofNat)
    (hcount : files.length ≤ 2 ^ 64) :
    (files.map fun f ↦ chunkEntry outFileName f.chunkNo).Nodup := by
  rw [map_chunkEntry_eq outFileName hnumbers]
  refine List.Nodup.map_on (fun i hi j hj hij ↦ ?_) List.nodup_range
  have hnat := congrArg UInt64.toNat (chunkEntry_injective outFileName hij)
  have hi := (List.mem_range.mp hi).trans_le hcount
  have hj := (List.mem_range.mp hj).trans_le hcount
  rwa [UInt64.toNat_ofNat_of_lt' hi, UInt64.toNat_ofNat_of_lt' hj] at hnat

theorem chunkEntries_sorted
    (hnumbers : files.map ChunkFile.chunkNo = (List.range files.length).map UInt64.ofNat)
    (hcount : files.length ≤ 10 ^ 6) :
    (files.map fun f ↦ chunkEntry outFileName f.chunkNo).Pairwise (· < ·) := by
  rw [map_chunkEntry_eq outFileName hnumbers, List.pairwise_map]
  refine List.pairwise_lt_range.imp_of_mem fun {i j} _ hj hij ↦ ?_
  have hj := (List.mem_range.mp hj).trans_le hcount
  have hi := hij.trans hj
  have hsize : 10 ^ 6 < UInt64.size := by decide
  refine chunkEntry_lt ?_ ?_
  · rwa [UInt64.toNat_ofNat_of_lt' (hi.trans hsize), UInt64.toNat_ofNat_of_lt' (hj.trans hsize)]
  · rwa [UInt64.toNat_ofNat_of_lt' (hj.trans hsize)]

theorem filter_isPcapFile_perm {listing : List Text}
    (hname : ¬ pcapFileType <:+: entryName outFileName) (hlisting : listing.Nodup)
    (hentries : ∀ dName, dName ∈ listing ∧ pcapFileType <:+ dName ↔
      ∃ f ∈ files, chunkEntry outFileName f.chunkNo = dName)
    (hnodup : (files.map fun f ↦ chunkEntry outFileName f.chunkNo).Nodup) :
    (listing.filter isPcapFile).Perm (files.map fun f ↦ chunkEntry outFileName f.chunkNo) := by
  refine (List.perm_ext_iff_of_nodup (hlisting.filter _) hnodup).mpr fun dName ↦ ?_
  rw [List.mem_filter, List.mem_map, ← hentries dName]
  refine and_congr_right fun hdName ↦ ⟨suffix_of_isPcapFile, fun hsuffix ↦ ?_⟩
  obtain ⟨f, -, rfl⟩ := (hentries dName).mp ⟨hdName, hsuffix⟩
  exact (isPcapFile_chunkDumpFile_iff outFileName f.chunkNo).mpr hname

/-- The files at the entries of the chunks hold the records of the chunks, one after the other. -/
theorem flatMap_chunkEntries {contents : Text → List Record} {description : Text}
    (hcontents : ∀ f ∈ files,
      contents (filePath description (chunkEntry outFileName f.chunkNo)) = f.records) :
    (files.map fun f ↦ chunkEntry outFileName f.chunkNo).flatMap
        (fun dName ↦ contents (filePath description dName))
      = (files.map ChunkFile.records).flatten := by
  rw [List.flatMap_map, List.flatMap_def]
  exact congrArg List.flatten (List.map_congr_left hcontents)

end Selection

/-! ## One pass -/

/-- **Capturing the chunks is capturing the file.** Let the capture files of a directory be the
chunks that a run of `chunkpcapfile` has written, under a name that does not hold `.pcap`. A pass of
a file capture session over the directory streams the packets of the input, each as often as it
comes there; and if there are at most a million chunks and the directory is listed by name, in the
order of the input. -/
theorem capture_of_chunks (canOpen : UInt64 → Bool) (chunkMaxSize : UInt64) (packets : List Packet)
    (hmin : minChunkSize ≤ chunkMaxSize) (hmax : chunkMaxSize.toNat < 2 ^ 63)
    (hfit : ∀ p ∈ packets, p.record.size ≤ chunkMaxSize.toNat) (files : List ChunkFile)
    (hfiles : chunkpcapfileMain canOpen chunkMaxSize (some packets) = .ok files)
    (hcount : files.length ≤ 2 ^ 64) (outFileName : Text)
    (hname : ¬ pcapFileType <:+: entryName outFileName) (opens : Text → Bool) (description : Text)
    (contents : Text → List Record) (listing : List Text) (hlisting : listing.Nodup)
    (hentries : ∀ dName, dName ∈ listing ∧ pcapFileType <:+ dName ↔
      ∃ f ∈ files, chunkEntry outFileName f.chunkNo = dName)
    (hcontents : ∀ f ∈ files,
      opens (filePath description (chunkEntry outFileName f.chunkNo)) = true ∧
        contents (filePath description (chunkEntry outFileName f.chunkNo)) = f.records) :
    ∃ pass, filePass opens description listing = .ok pass ∧
      pass.pcapFileCount = files.length ∧
      (pass.streamed.flatMap contents).Perm (packets.map Packet.record) ∧
      (files.length ≤ 10 ^ 6 → listing.Pairwise (· < ·) →
        pass.streamed.flatMap contents = packets.map Packet.record) := by
  obtain ⟨hcut, hnumbers⟩ := greedyCut_of_chunkpcapfileMain hmin hmax hfit hfiles
  have hnodup : (files.map fun f ↦ chunkEntry outFileName f.chunkNo).Nodup :=
    nodup_chunkEntries hnumbers hcount
  have hselected := filter_isPcapFile_perm hname hlisting hentries hnodup
  have hpackets : (files.map fun f ↦ chunkEntry outFileName f.chunkNo).flatMap
      (fun dName ↦ contents (filePath description dName)) = packets.map Packet.record :=
    (flatMap_chunkEntries fun f hf ↦ (hcontents f hf).2).trans hcut.flatten
  have hopens : ∀ dName ∈ listing, isPcapFile dName → opens (filePath description dName) := by
    intro dName hdName hpcap
    obtain ⟨f, hf, rfl⟩ := (hentries dName).mp ⟨hdName, suffix_of_isPcapFile hpcap⟩
    exact (hcontents f hf).1
  refine ⟨_, foldlM_visitEntry listing hopens 0 [], ?_, ?_, fun hmillion hsorted ↦ ?_⟩
  · rw [Nat.zero_add, hselected.length_eq, List.length_map]
  · rw [List.nil_append, List.flatMap_map, ← hpackets]
    exact hselected.flatMap_right _
  · -- two sorted lists of the same names are equal
    have hsame : listing.filter isPcapFile = files.map fun f ↦ chunkEntry outFileName f.chunkNo :=
      hselected.eq_of_pairwise (fun _ _ _ _ hab hba ↦ absurd hba (List.lt_asymm hab))
        (hsorted.filter _) (chunkEntries_sorted hnumbers hmillion)
    rw [List.nil_append, List.flatMap_map, hsame, hpackets]

/-- Six packets of which three fit one chunk, in a directory with the two chunks and the file
`notes`. -/
theorem capture_of_chunks_jumbo :
    ∃ pass, filePass (fun _ ↦ true) ['d'] [chunkEntry ['a'] 0, chunkEntry ['a'] 1, "notes".toList]
        = .ok pass ∧ pass.pcapFileCount = 2 ∧
      (pass.streamed.flatMap fun _ ↦ List.replicate 3 jumboPacket.record).Perm
        (List.replicate 6 jumboPacket.record) ∧
      (2 ≤ 10 ^ 6 →
        [chunkEntry ['a'] 0, chunkEntry ['a'] 1, "notes".toList].Pairwise (· < ·) →
          (pass.streamed.flatMap fun _ ↦ List.replicate 3 jumboPacket.record)
            = List.replicate 6 jumboPacket.record) := by
  refine capture_of_chunks (fun _ ↦ true) minChunkSize (List.replicate 6 jumboPacket)
    (UInt64.le_refl _) (by decide) (fun p hp ↦ ?_)
    [⟨0, List.replicate 3 jumboPacket.record⟩, ⟨1, List.replicate 3 jumboPacket.record⟩] rfl
    (by decide) ['a'] (by decide) (fun _ ↦ true) ['d']
    (fun _ ↦ List.replicate 3 jumboPacket.record) _ (by decide) (fun dName ↦ ?_) (by simp)
  · rw [List.eq_of_mem_replicate hp]
    decide
  · have hnotes : ¬ pcapFileType <:+ "notes".toList := by decide
    have hchunk : ∀ n : UInt64, n = 0 ∨ n = 1 → pcapFileType <:+ chunkEntry ['a'] n := by
      rintro n (rfl | rfl) <;> decide
    constructor
    · rintro ⟨hmem, hsuffix⟩
      rcases List.mem_cons.mp hmem with rfl | hmem
      · exact ⟨⟨0, _⟩, List.mem_cons_self, rfl⟩
      rcases List.mem_cons.mp hmem with rfl | hmem
      · exact ⟨⟨1, _⟩, List.mem_cons_of_mem _ List.mem_cons_self, rfl⟩
      · exact absurd (List.mem_singleton.mp hmem ▸ hsuffix) hnotes
    · rintro ⟨f, hf, rfl⟩
      rcases List.mem_cons.mp hf with rfl | hf
      · exact ⟨List.mem_cons_self, hchunk 0 (.inl rfl)⟩
      · obtain rfl := List.mem_singleton.mp hf
        exact ⟨List.mem_cons_of_mem _ List.mem_cons_self, hchunk 1 (.inr rfl)⟩

end DistributorMerger
