import Mathlib
import DistributorMerger.Filter.Columns
import DistributorMerger.Filter.ImsiOutput
import DistributorMerger.Session.FileSelection

/-!
# Reading the output of `decodegtp`

The columns that `decodegtp` prints for the elements of a message may slip, but those in front of
them do not. Whatever packets are decoded, there is one line for each, and the first twelve fields
of a line are those of the GTP header and its option fields. Behind them a line for user data has
the two addresses, and a line for a signalling message an empty field.

The argument is again that the fields have no separator in them: they are numbers, to base ten or
sixteen, and names from a table. What the element loop prints has commas, but no newline.
-/

namespace DistributorMerger

/-! ## Hexadecimal numbers -/

/-- The value of a hexadecimal digit. -/
def hexDigitValue (c : Char) : ℕ := if c.isDigit then c.toNat - 48 else c.toNat - 87

/-- A hexadecimal number. -/
def readHex (field : List Char) : ℕ := field.foldl (fun n c ↦ 16 * n + hexDigitValue c) 0

theorem readHex_toDigits (n : ℕ) : readHex (Nat.toDigits 16 n) = n := by
  have hdigit : ∀ d < 16, hexDigitValue (Nat.digitChar d) = d := by decide
  induction n using Nat.strongRecOn with
  | ind n ih =>
    rw [Nat.toDigits_eq_if (by norm_num)]
    split
    · rename_i hlt
      rw [readHex, List.foldl_cons, List.foldl_nil, hdigit n hlt, Nat.mul_zero, Nat.zero_add]
    · rename_i hge
      rw [readHex, List.foldl_append, ← readHex, ih (n / 16) (by omega), List.foldl_cons,
        List.foldl_nil, hdigit (n % 16) (Nat.mod_lt _ (by norm_num)), Nat.div_add_mod]

theorem readHex_hexString (n : ℕ) : readHex (hexString n).toList = n := by
  rw [hexString, String.toList_ofList, readHex_toDigits]

/-! ## Fields -/

/-- A text without commas and newlines. -/
structure FieldText (l : List Char) : Prop where
  /-- There is no comma. -/
  comma_notMem : ',' ∉ l
  /-- There is no newline. -/
  newline_notMem : '\n' ∉ l

section Fields

variable {l r : List Char}

theorem fieldText_nil : FieldText [] := ⟨List.not_mem_nil, List.not_mem_nil⟩

theorem FieldText.append (hl : FieldText l) (hr : FieldText r) : FieldText (l ++ r) where
  comma_notMem := fun h ↦ (List.mem_append.mp h).elim hl.comma_notMem hr.comma_notMem
  newline_notMem := fun h ↦ (List.mem_append.mp h).elim hl.newline_notMem hr.newline_notMem

theorem fieldText_of_isDigit (h : ∀ c ∈ l, c.isDigit = true) : FieldText l :=
  ⟨fun hc ↦ absurd (h _ hc) (by decide), fun hc ↦ absurd (h _ hc) (by decide)⟩

theorem fieldText_toString (n : ℕ) : FieldText (toString n).toList :=
  ⟨notMem_toString (by decide) n, notMem_toString (by decide) n⟩

theorem fieldText_dotted (octet : ℕ → UInt8) : FieldText (dotted octet).toList :=
  ⟨notMem_dotted (by decide) (by decide) octet, notMem_dotted (by decide) (by decide) octet⟩

theorem fieldText_hexString (n : ℕ) : FieldText (hexString n).toList := by
  have hdigit : ∀ d < 16, ',' ∉ [Nat.digitChar d] ∧ '\n' ∉ [Nat.digitChar d] := by decide
  rw [hexString, String.toList_ofList]
  induction n using Nat.strongRecOn with
  | ind n ih =>
    rw [Nat.toDigits_eq_if (by norm_num)]
    split
    · rename_i hlt
      exact ⟨(hdigit n hlt).1, (hdigit n hlt).2⟩
    · rename_i hge
      obtain ⟨hcomma, hnewline⟩ := hdigit (n % 16) (Nat.mod_lt _ (by norm_num))
      exact (ih (n / 16) (by omega)).append ⟨hcomma, hnewline⟩

theorem splitOn_fields {fields : List (List Char)} (h : ∀ f ∈ fields, FieldText f)
    (rest : List Char) :
    (fields.flatMap (· ++ [',']) ++ rest).splitOn ',' = fields ++ rest.splitOn ',' := by
  induction fields with
  | nil => rfl
  | cons f fields ih =>
    rw [List.flatMap_cons, List.append_assoc, List.append_assoc, List.singleton_append,
      List.splitOn_append_cons_self_of_not_mem (h f List.mem_cons_self).comma_notMem,
      ih fun f' hf' ↦ h f' (List.mem_cons_of_mem f hf'), List.cons_append]

theorem readLines_flatMap {lines : List (List Char)} (h : ∀ l ∈ lines, '\n' ∉ l) :
    readLines (lines.flatMap (· ++ ['\n'])) = lines := by
  induction lines with
  | nil => rfl
  | cons l lines ih =>
    rw [List.flatMap_cons, List.append_assoc, List.singleton_append,
      readLines_append (h l List.mem_cons_self),
      ih fun l' hl' ↦ h l' (List.mem_cons_of_mem l hl')]

end Fields

theorem walk_preserves {σ : Type*} {visit : ElementVisit → σ → σ} {caplen gtp : ℕ} {data : Memory}
    {P : σ → Prop} (hvisit : ∀ v s, P s → P (visit v s)) {fuel offset : ℕ} {s s' : σ}
    (h : walk visit caplen data gtp fuel offset s = some s') (hs : P s) : P s' := by
  induction fuel generalizing offset s with
  | zero => cases h
  | succ fuel ih =>
    rw [walk] at h
    cases hiteration : walkIteration caplen data gtp offset with
    | leave =>
      rw [hiteration] at h
      exact Option.some.inj h ▸ hs
    | last v =>
      rw [hiteration] at h
      exact Option.some.inj h ▸ hvisit v s hs
    | next v =>
      rw [hiteration] at h
      exact ih h (hvisit v s hs)

namespace Decodegtp

/-- The line of column names that `main` prints. -/
def columnNames : String :=
  "gtp,version,type,f_exthdr,f_seqno,f_npdu,msgtype,length,teid,seqno,npdu,nexttype,src,dest"

/-- `main` of `decodegtp` on a file that opens: what is printed, or `none` when the element loop
does not end within the fuel on some packet. -/
def decodegtpMain (ctime : ℤ → String) (fuel : ℕ) (packets : List Packet) : Option String :=
  packets.foldlM (fun out p ↦ (decodeGtpPacket ctime fuel p).map (out ++ ·)) (columnNames ++ "\n")

/-! ## Reading lines -/

/-- What is read from a line. -/
structure Reading where
  /-- The line is about user data. -/
  userData : Bool
  /-- The columns `version`, `type`, `f_exthdr`, `f_seqno` and `f_npdu`. -/
  flags : List ℕ
  /-- The number in the column `msgtype`. -/
  messageType : ℕ
  /-- The name in the column `msgtype`. -/
  messageName : List Char
  /-- The column `length`. -/
  length : ℕ
  /-- The column `teid`. -/
  teid : ℕ
  /-- The columns `seqno`, `npdu` and `nexttype`, which may be empty. -/
  options : List (Option ℕ)
  /-- What stands behind these columns. -/
  rest : List (List Char)

/-- A number to base sixteen, or nothing. -/
def readOption (field : List Char) : Option ℕ := if field = [] then none else some (readHex field)

/-- Read a line of at least twelve fields. -/
def readLine (line : List Char) : Option Reading :=
  match line.splitOn ',' with
  | kind :: version :: type :: exthdr :: seqnoFlag :: npduFlag :: message :: length :: teid ::
      seqno :: npdu :: nexttype :: rest =>
    some
      { userData := decide ("gtp-u".toList <:+ kind)
        flags := [version, type, exthdr, seqnoFlag, npduFlag].map readNumber
        messageType := readNumber (message.takeWhile (· ≠ '['))
        messageName := message.dropWhile (· ≠ '[')
        length := readNumber length
        teid := readHex teid
        options := [seqno, npdu, nexttype].map readOption
        rest := rest }
  | _ => none

/-- The line says what its packet has in its headers. -/
structure Says (p : Packet) (gtp : ℕ) (r : Reading) : Prop where
  /-- The line is about user data exactly if the packet is a G-PDU. -/
  userData : r.userData = true ↔ DistributorMerger.messageType p.data gtp = gtpv1MtGPdu
  /-- The version, the protocol type and the three flags. -/
  flags : r.flags = [gtpVer (flagTypeVer p.data gtp), gtpType (flagTypeVer p.data gtp),
    gtpExtFlag (flagOptions p.data gtp), gtpSeqFlag (flagOptions p.data gtp),
    gtpNpduFlag (flagOptions p.data gtp)]
  /-- The message type. -/
  messageType : r.messageType = (DistributorMerger.messageType p.data gtp).toNat
  /-- The name of the message type. -/
  messageName : r.messageName
    = '[' :: (gtpv1MessageTypeName (DistributorMerger.messageType p.data gtp).toNat).toList ++ [']']
  /-- The length. -/
  length : r.length = messageLength p.data gtp
  /-- The tunnel endpoint identifier. -/
  teid : r.teid = (headerTeid p.data gtp).toNat
  /-- The option fields, if there is an option flag. -/
  options : r.options = if flagOptions p.data gtp ≠ 0 then
      [some (p.data.be16 (gtp + 8)), some (p.data (gtp + 10)).toNat,
        some (p.data (gtp + 11)).toNat]
    else [none, none, none]
  /-- The addresses of the packet in the tunnel. -/
  addresses : DistributorMerger.messageType p.data gtp = gtpv1MtGPdu →
    r.rest.map readDotted = [12, 16].map fun offset ↦ (List.range 4).map fun i ↦
      (p.data (gtp + firstElementOffset p.data gtp + offset + i)).toNat
  /-- A signalling message has no source. -/
  noSource : DistributorMerger.messageType p.data gtp ≠ gtpv1MtGPdu → r.rest.head? = some []

/-- The line is that of the packet. -/
def LineOf (p : Packet) (line : List Char) : Prop :=
  match gtpv1GetHeader p.header.caplen p.data with
  | none => readLine line = none
  | some gtp => ∃ r, readLine line = some r ∧ Says p gtp r

/-! ## The first fields -/

section Front

variable {ctime : ℤ → String} {p : Packet} {gtp : ℕ}

/-- The first twelve fields of a line. -/
def headerFields (ctime : ℤ → String) (p : Packet) (gtp : ℕ) : List (List Char) :=
  let options := flagOptions p.data gtp
  let type := messageType p.data gtp
  [(timeText ctime p.header).toList
      ++ (if type = gtpv1MtGPdu then "gtp-u" else "gtp-c").toList,
    (toString (gtpVer (flagTypeVer p.data gtp))).toList,
    (toString (gtpType (flagTypeVer p.data gtp))).toList,
    (toString (gtpExtFlag options)).toList, (toString (gtpSeqFlag options)).toList,
    (toString (gtpNpduFlag options)).toList,
    (toString type.toNat).toList ++ '[' :: (gtpv1MessageTypeName type.toNat).toList ++ [']'],
    (toString (messageLength p.data gtp)).toList, (hexString (headerTeid p.data gtp).toNat).toList]
  ++ if options ≠ 0 then
      [(hexString (p.data.be16 (gtp + 8))).toList, (hexString (p.data (gtp + 10)).toNat).toList,
        (hexString (p.data (gtp + 11)).toNat).toList]
    else [[], [], []]

theorem toList_front (ctime : ℤ → String) (p : Packet) (gtp : ℕ) :
    (timeText ctime p.header ++ headerText p.data gtp).toList ++ [',']
      = (headerFields ctime p gtp).flatMap (· ++ [',']) := by
  unfold headerText headerFields
  by_cases htype : messageType p.data gtp = gtpv1MtGPdu <;>
    by_cases hoptions : flagOptions p.data gtp = 0 <;>
    simp only [htype, hoptions, if_true, if_false, ne_eq, not_true_eq_false, not_false_eq_true,
      String.toList_append, List.append_assoc, List.cons_append, List.nil_append,
      List.flatMap_cons, List.flatMap_nil] <;>
    rfl

/-- No name of a message type has a separator in it. -/
theorem fieldText_gtpv1MessageTypeName (type : ℕ) :
    FieldText (gtpv1MessageTypeName type).toList := by
  have hnames : ∀ x ∈ gtpv1MessageTypeNames, ',' ∉ x.2.toList ∧ '\n' ∉ x.2.toList := by
    decide +kernel
  rw [gtpv1MessageTypeName]
  cases hlookup : gtpv1MessageTypeNames.lookup type with
  | none => exact ⟨by decide, by decide⟩
  | some name =>
    obtain ⟨l₁, l₂, heq, -⟩ := List.lookup_eq_some_iff.mp hlookup
    obtain ⟨hcomma, hnewline⟩ := hnames (type, name) (by rw [heq]; simp)
    exact ⟨hcomma, hnewline⟩

theorem fieldText_timeText (hctime : ∀ t, FieldText (ctime t).toList.dropLast) (h : PcapPkthdr) :
    FieldText (timeText ctime h).toList := by
  rw [timeText]
  simp only [String.toList_append, String.toList_ofList]
  exact (((hctime _).append ⟨by decide, by decide⟩).append
    (fieldText_of_isDigit fun _ hc ↦ isDigit_of_mem_zeroPadded hc)).append ⟨by decide, by decide⟩

theorem fieldText_headerFields (hctime : ∀ t, FieldText (ctime t).toList.dropLast) :
    ∀ f ∈ headerFields ctime p gtp, FieldText f := by
  have hkind : FieldText
      (if messageType p.data gtp = gtpv1MtGPdu then "gtp-u" else "gtp-c").toList := by
    split
    · exact ⟨by decide, by decide⟩
    · exact ⟨by decide, by decide⟩
  have hname : FieldText ((toString (messageType p.data gtp).toNat).toList
      ++ '[' :: (gtpv1MessageTypeName (messageType p.data gtp).toNat).toList ++ [']']) :=
    ((fieldText_toString _).append (FieldText.append (l := ['[']) ⟨by decide, by decide⟩
      (fieldText_gtpv1MessageTypeName _))).append ⟨by decide, by decide⟩
  have hoptions : ∀ f ∈ if flagOptions p.data gtp ≠ 0 then
      [(hexString (p.data.be16 (gtp + 8))).toList, (hexString (p.data (gtp + 10)).toNat).toList,
        (hexString (p.data (gtp + 11)).toNat).toList] else [[], [], []], FieldText f := by
    split
    · simp [fieldText_hexString]
    · simp [fieldText_nil]
  unfold headerFields
  refine List.forall_mem_append.mpr ⟨?_, hoptions⟩
  simp only [List.forall_mem_cons, fieldText_toString, fieldText_hexString, hname, true_and]
  exact ⟨(fieldText_timeText hctime _).append hkind, by simp⟩

theorem readOption_hexString (n : ℕ) : readOption (hexString n).toList = some n := by
  have hne : (hexString n).toList ≠ [] := by
    rw [hexString, String.toList_ofList]
    exact List.ne_nil_of_length_pos Nat.length_toDigits_pos
  rw [readOption, if_neg hne, readHex_hexString]

theorem takeWhile_toString (n : ℕ) (l : List Char) :
    ((toString n).toList ++ '[' :: l).takeWhile (· ≠ '[') = (toString n).toList ∧
      ((toString n).toList ++ '[' :: l).dropWhile (· ≠ '[') = '[' :: l := by
  have hdigits : ∀ c ∈ (toString n).toList, decide (c ≠ '[') = true := by
    intro c hc
    rw [decide_eq_true_iff]
    rintro rfl
    exact notMem_toString (by decide) n hc
  rw [List.takeWhile_append_of_pos hdigits, List.dropWhile_append_of_pos hdigits]
  simp

/-- A line that begins with these fields is read as it was printed. -/
theorem exists_readLine {line : List Char} {rest : List (List Char)}
    (h : line.splitOn ',' = headerFields ctime p gtp ++ rest)
    (haddresses : messageType p.data gtp = gtpv1MtGPdu →
      rest.map readDotted = [12, 16].map fun offset ↦ (List.range 4).map fun i ↦
        (p.data (gtp + firstElementOffset p.data gtp + offset + i)).toNat)
    (hnoSource : messageType p.data gtp ≠ gtpv1MtGPdu → rest.head? = some []) :
    ∃ r, readLine line = some r ∧ Says p gtp r := by
  have hkind : "gtp-u".toList <:+ (timeText ctime p.header).toList
      ++ (if messageType p.data gtp = gtpv1MtGPdu then "gtp-u" else "gtp-c").toList ↔
        messageType p.data gtp = gtpv1MtGPdu := by
    split
    · exact iff_of_true (List.suffix_append _ _) ‹_›
    · refine iff_of_false (fun hsuffix ↦ ?_) ‹_›
      have hlast := List.suffix_of_suffix_length_le hsuffix
        (List.suffix_append (timeText ctime p.header).toList "gtp-c".toList) (by decide)
      exact absurd hlast (by decide)
  obtain ⟨seqno, npdu, nexttype, hoptions, hread⟩ : ∃ seqno npdu nexttype,
      (if flagOptions p.data gtp ≠ 0 then
        [(hexString (p.data.be16 (gtp + 8))).toList, (hexString (p.data (gtp + 10)).toNat).toList,
          (hexString (p.data (gtp + 11)).toNat).toList]
      else [[], [], []]) = [seqno, npdu, nexttype] ∧
      [seqno, npdu, nexttype].map readOption = if flagOptions p.data gtp ≠ 0 then
        [some (p.data.be16 (gtp + 8)), some (p.data (gtp + 10)).toNat,
          some (p.data (gtp + 11)).toNat]
      else [none, none, none] := by
    split
    · exact ⟨_, _, _, rfl, by simp only [List.map_cons, List.map_nil, readOption_hexString]⟩
    · exact ⟨[], [], [], rfl, rfl⟩
  unfold headerFields at h
  dsimp only at h
  rw [hoptions] at h
  simp only [List.cons_append, List.nil_append] at h
  rw [readLine, h]
  exact ⟨_, rfl,
    { userData := by
        rw [decide_eq_true_iff]
        exact hkind
      flags := by simp only [List.map_cons, List.map_nil, readNumber_toString]
      messageType := by
        dsimp only
        rw [List.append_assoc, List.cons_append, (takeWhile_toString _ _).1, readNumber_toString]
      messageName := by
        dsimp only
        rw [List.append_assoc, List.cons_append, (takeWhile_toString _ _).2]
      length := readNumber_toString _
      teid := readHex_hexString _
      options := hread
      addresses := haddresses
      noSource := hnoSource }⟩

theorem newline_notMem_fields {fields : List (List Char)} (h : ∀ f ∈ fields, FieldText f) :
    '\n' ∉ fields.flatMap (· ++ [',']) := by
  intro hmem
  obtain ⟨f, hf, hc⟩ := List.mem_flatMap.mp hmem
  rcases List.mem_append.mp hc with hc | hc
  · exact (h f hf).newline_notMem hc
  · exact absurd (List.mem_singleton.mp hc) (by decide)

end Front

/-! ## The element loop -/

/-- What has been printed is the text in front of the loop and no newline behind it. -/
def Columns.Extends (c : Columns) (front : List Char) : Prop :=
  ∃ r, c.out.toList = front ++ r ∧ '\n' ∉ r

section Loop

variable {c : Columns} {front : List Char} {data : Memory} {gtp pos : ℕ}

theorem newline_notMem_value (column : Column) : '\n' ∉ (column.value data pos).toList := by
  cases column with
  | imsi => exact (fieldText_of_isDigit isDigit_of_mem_imsi2str).newline_notMem
  | teidd1 => exact (fieldText_hexString _).newline_notMem
  | teidcp => exact (fieldText_hexString _).newline_notMem
  | eua => exact (fieldText_dotted _).newline_notMem

theorem Columns.Extends.fill (h : c.Extends front) (column : Column) {text : String}
    (htext : '\n' ∉ text.toList) : (c.fill column text).Extends front := by
  obtain ⟨r, hr, hline⟩ := h
  refine ⟨r ++ text.toList, ?_, ?_⟩
  · rw [out_fill, String.toList_append, hr, List.append_assoc]
  · rw [List.mem_append, not_or]
    exact ⟨hline, htext⟩

theorem Columns.Extends.closeColumn (h : c.Extends front) (column : Column) (ie : ℕ) :
    (closeColumn column ie c).Extends front := by
  rw [Decodegtp.closeColumn]
  split
  · exact h.fill column (by decide)
  · exact h

theorem Columns.Extends.printValue (h : c.Extends front) (ie : ℕ) :
    (printValue data pos ie c).Extends front := by
  have hif : ∀ {q : Prop} [Decidable q] {c c' : Columns}, c.Extends front → c'.Extends front →
      (if q then c else c').Extends front := by
    intro q _ c c' hc hc'
    split
    · exact hc
    · exact hc'
  have hvalue : ∀ {c : Columns} (column : Column), c.Extends front →
      (c.fill column (column.value data pos ++ ",")).Extends front := by
    intro c column hc
    refine hc.fill column ?_
    rw [String.toList_append, List.mem_append, not_or]
    exact ⟨newline_notMem_value column, by decide⟩
  have himsi := hif (q := ie = gtpv1IeImsi) (hvalue .imsi h) h
  have hteidd1 := hif (q := ie = gtpv1IeTeiDataI) (hvalue .teidd1 himsi) himsi
  have hteidcp := hif (q := ie = gtpv1IeTeiControlPlane) (hvalue .teidcp hteidd1) hteidd1
  exact hif (hteidcp.fill .eua (newline_notMem_value .eua)) hteidcp

theorem Columns.Extends.visit (h : c.Extends front) (v : ElementVisit) :
    (visit data gtp v c).Extends front := by
  rw [visit_eq, closeColumns_eq]
  exact (((h.printValue v.ie).closeColumn .imsi v.ie).closeColumn .teidd1 v.ie).closeColumn
    .teidcp v.ie

end Loop

/-! ## Lines -/

section Lines

variable {ctime : ℤ → String} {fuel : ℕ} {p : Packet} {packets : List Packet}

theorem lineOf_decodeGtpPacket (hctime : ∀ t, FieldText (ctime t).toList.dropLast) {text : String}
    (h : decodeGtpPacket ctime fuel p = some text) :
    ∃ line, text.toList = line ++ ['\n'] ∧ '\n' ∉ line ∧ LineOf p line := by
  rw [decodeGtpPacket] at h
  unfold LineOf
  cases hgtp : gtpv1GetHeader p.header.caplen p.data with
  | none =>
    rw [hgtp] at h
    obtain rfl := Option.some.inj h
    have hfield : FieldText ((timeText ctime p.header).toList ++ "not-gtp".toList) :=
      (fieldText_timeText hctime _).append ⟨by decide, by decide⟩
    refine ⟨_, ?_, hfield.newline_notMem, ?_⟩
    · rw [String.toList_append, List.append_assoc]
      rfl
    · dsimp only
      rw [readLine, List.splitOn_eq_singleton hfield.comma_notMem]
  | some gtp =>
    rw [hgtp] at h
    dsimp only at h ⊢
    have hfields : ∀ f ∈ headerFields ctime p gtp, FieldText f := fieldText_headerFields hctime
    by_cases htype : messageType p.data gtp = gtpv1MtGPdu
    · rw [if_pos htype] at h
      obtain rfl := Option.some.inj h
      have hsource := fieldText_dotted fun i ↦
        p.data (gtp + firstElementOffset p.data gtp + 12 + i)
      have htarget := fieldText_dotted fun i ↦
        p.data (gtp + firstElementOffset p.data gtp + 16 + i)
      have hsplit := splitOn_fields hfields ((dotted fun i ↦
        p.data (gtp + firstElementOffset p.data gtp + 12 + i)).toList ++ ',' :: (dotted fun i ↦
          p.data (gtp + firstElementOffset p.data gtp + 16 + i)).toList)
      rw [List.splitOn_append_cons_self_of_not_mem hsource.comma_notMem,
        List.splitOn_eq_singleton htarget.comma_notMem] at hsplit
      refine ⟨_, ?_, ?_, exists_readLine hsplit (fun _ ↦ ?_) fun hne ↦ absurd htype hne⟩
      · rw [← toList_front]
        simp only [String.toList_append, List.append_assoc]
        rfl
      · simp only [List.mem_append, List.mem_cons, newline_notMem_fields hfields,
          hsource.newline_notMem, htarget.newline_notMem, or_false, false_or]
        decide
      · simp only [List.map_cons, List.map_nil, readDotted_dotted]
    · rw [if_neg htype] at h
      obtain ⟨c, hwalk, rfl⟩ := Option.map_eq_some_iff.mp h
      obtain ⟨r, hr, hline⟩ := walk_preserves (P := fun c : Columns ↦ c.Extends
        (timeText ctime p.header ++ headerText p.data gtp ++ ",,").toList)
        (fun v s hs ↦ hs.visit v) hwalk ⟨[], (List.append_nil _).symm, List.not_mem_nil⟩
      have hsplit := splitOn_fields hfields ([] ++ ',' :: r)
      rw [List.splitOn_append_cons_self_of_not_mem List.not_mem_nil] at hsplit
      refine ⟨_, ?_, ?_, exists_readLine hsplit (fun heq ↦ absurd heq htype) fun _ ↦ rfl⟩
      · rw [← toList_front, String.toList_append, hr]
        simp only [String.toList_append, List.append_assoc]
        rfl
      · simp only [List.mem_append, List.mem_cons, newline_notMem_fields hfields, hline,
          List.nil_append, or_false, false_or]
        decide

theorem lines_of_foldlM (hctime : ∀ t, FieldText (ctime t).toList.dropLast) {out output : String}
    (h : packets.foldlM (fun out p ↦ (decodeGtpPacket ctime fuel p).map (out ++ ·)) out
      = some output) :
    ∃ lines, output.toList = out.toList ++ lines.flatMap (· ++ ['\n']) ∧
      (∀ l ∈ lines, '\n' ∉ l) ∧ List.Forall₂ LineOf packets lines := by
  induction packets generalizing out with
  | nil =>
    cases h
    exact ⟨[], (List.append_nil _).symm, by simp, .nil⟩
  | cons p packets ih =>
    rw [List.foldlM_cons] at h
    obtain ⟨out', hp, hrest⟩ := Option.bind_eq_some_iff.mp h
    obtain ⟨text, htext, rfl⟩ := Option.map_eq_some_iff.mp hp
    obtain ⟨line, hline, hnewline, hof⟩ := lineOf_decodeGtpPacket hctime htext
    obtain ⟨lines, hlines, hnewlines, hofs⟩ := ih hrest
    refine ⟨line :: lines, ?_, List.forall_mem_cons.mpr ⟨hnewline, hnewlines⟩, .cons hof hofs⟩
    rw [hlines, String.toList_append, hline, List.flatMap_cons, List.append_assoc]

end Lines

/-- **The header columns can be read back.** Whatever packets are decoded, if all of them are, the
output is the line of column names and one line for each packet. The line of a packet without a GTP
header has fewer than twelve fields; from every other line the fields of the GTP header and its
option fields are read, and behind them the two addresses of the packet in the tunnel for user data,
and an empty field otherwise. -/
theorem decodegtp_output_readable (ctime : ℤ → String)
    (hctime : ∀ t, FieldText (ctime t).toList.dropLast) (fuel : ℕ) (packets : List Packet)
    (output : String) (h : decodegtpMain ctime fuel packets = some output) :
    ∃ lines, readLines output.toList = columnNames.toList :: lines ∧
      List.Forall₂ LineOf packets lines := by
  obtain ⟨lines, hlines, hnewlines, hofs⟩ := lines_of_foldlM hctime h
  refine ⟨lines, ?_, hofs⟩
  have hnames : '\n' ∉ columnNames.toList := by decide
  have houtput : output.toList = (columnNames.toList :: lines).flatMap (· ++ ['\n']) := by
    rw [hlines, String.toList_append, List.flatMap_cons]
    rfl
  rw [houtput, readLines_flatMap (List.forall_mem_cons.mpr ⟨hnames, hnewlines⟩)]

/-- A Create PDP Context Response and a frame without a GTP header. -/
theorem decodegtp_output_readable_response :
    ∃ output lines, decodegtpMain (fun _ ↦ "Thu Jan  1 00:00:00 1970\n") 8
        [createPdpContextResponse 5, ⟨⟨0, 0, 14, 14⟩, fun _ ↦ 0⟩] = some output ∧
      readLines output.toList = columnNames.toList :: lines ∧
      List.Forall₂ LineOf [createPdpContextResponse 5, ⟨⟨0, 0, 14, 14⟩, fun _ ↦ 0⟩] lines := by
  have hends : (decodegtpMain (fun _ ↦ "Thu Jan  1 00:00:00 1970\n") 8
      [createPdpContextResponse 5, ⟨⟨0, 0, 14, 14⟩, fun _ ↦ 0⟩]).isSome = true := by decide +kernel
  obtain ⟨output, houtput⟩ := Option.isSome_iff_exists.mp hends
  obtain ⟨lines, hlines⟩ := decodegtp_output_readable _ (fun _ ↦ ⟨by decide, by decide⟩) 8 _
    output houtput
  exact ⟨output, lines, houtput, hlines⟩

end Decodegtp

end DistributorMerger
