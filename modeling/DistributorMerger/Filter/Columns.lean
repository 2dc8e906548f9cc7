import DistributorMerger.Filter.DecoderReads

/-!
# The columns of `decodegtp`

The element loop of `decodegtp` fills four columns: the IMSI, the two tunnel endpoint identifiers
and the end user address. A value is printed when its element comes. The commas that stand in for
values that did not come are printed at the end of the iteration, behind the value of the element
that shows that they are missing. So a column in front of a value is closed only if its own element
or an element of a greater type came in an earlier iteration.

The loop is cut here into the part that prints a value and the part that closes columns, and the
number of commas printed is the number of columns closed as long as no value comes twice.
-/

namespace DistributorMerger

namespace Decodegtp

/-! ## The columns -/

/-- The columns in their order. -/
inductive Column
  /-- The IMSI. -/
  | imsi
  /-- The tunnel endpoint identifier for data. -/
  | teidd1
  /-- The tunnel endpoint identifier for the control plane. -/
  | teidcp
  /-- The end user address. -/
  | eua
  deriving DecidableEq, Repr

namespace Column

/-- The type of the elements that fill the column. -/
def ieType : Column → ℕ
  | imsi => gtpv1IeImsi
  | teidd1 => gtpv1IeTeiDataI
  | teidcp => gtpv1IeTeiControlPlane
  | eua => gtpv1IeEndUserAddress

/-- The number of columns in front. -/
def index : Column → ℕ
  | imsi => 0
  | teidd1 => 1
  | teidcp => 2
  | eua => 3

/-- The value that is printed for the element at `pos`. -/
def value (data : Memory) (pos : ℕ) : Column → String
  | imsi => imsi2str data pos
  | teidd1 => hexString (teid2uint data pos).toNat
  | teidcp => hexString (teid2uint data pos).toNat
  | eua => dotted (euaIpv4Address data pos)

end Column

/-- The column that an element has a value for. An end user address without an address has none. -/
def valueColumn (e : Element) : Option Column :=
  if e.entry.id = gtpv1IeImsi then some .imsi
  else if e.entry.id = gtpv1IeTeiDataI then some .teidd1
  else if e.entry.id = gtpv1IeTeiControlPlane then some .teidcp
  else if e.entry.id = gtpv1IeEndUserAddress ∧ e.body.length > gtpv1EuaNoAddressLength
    then some .eua
  else none

/-- The number of commas in a text. -/
def commas (s : String) : ℕ := s.toList.count ','

/-- The state of the element loop after the elements `es`, with its own text only. -/
def loopColumns (data : Memory) (gtp : ℕ) (es : List Element) : Columns :=
  (visitsFrom (firstElementOffset data gtp) es).foldl (fun c v ↦ visit data gtp v c) { out := "" }

/-- The text that the element loop prints for the elements `es`. -/
def loopText (data : Memory) (gtp : ℕ) (es : List Element) : String := (loopColumns data gtp es).out

/-- The text that is printed in front of the element loop. -/
def frontText (ctime : ℤ → String) (p : Packet) (gtp : ℕ) : String :=
  timeText ctime p.header ++ headerText p.data gtp ++ ",,"

/-- Every value of the message is printed in its own column: behind the text of the elements in
front of it, in which there are as many commas as columns in front of its own. -/
def Aligned (p : Packet) (gtp : ℕ) (es : List Element) : Prop :=
  ∀ es₁ e es₂ column, es = es₁ ++ e :: es₂ → valueColumn e = some column →
    (∃ rest, ∀ ctime, ∀ fuel ≥ es.length, decodeGtpPacket ctime fuel p
      = some (frontText ctime p gtp ++ (loopText p.data gtp es₁
        ++ column.value p.data (gtp + (firstElementOffset p.data gtp + (elementOctets es₁).length))
        ++ rest))) ∧
    commas (loopText p.data gtp es₁) = column.index

/-- Every value but the IMSI comes behind an element of at least the type of the column in front of
its own. -/
def Announced (es : List Element) : Prop :=
  ∀ es₁ e es₂ column, es = es₁ ++ e :: es₂ → valueColumn e = some column →
    ∀ previous : Column, previous.index + 1 = column.index →
      ∃ e' ∈ es₁, previous.ieType ≤ e'.entry.id

/-! ## The two parts of the loop body -/

/-- The flag of a column. -/
def Columns.found (c : Columns) : Column → Bool
  | .imsi => c.imsiFound
  | .teidd1 => c.teidd1Found
  | .teidcp => c.teidcpFound
  | .eua => c.euaFound

/-- Print a text and set the flag of a column. -/
def Columns.fill (c : Columns) (column : Column) (text : String) : Columns :=
  match column with
  | .imsi => { c.print text with imsiFound := true }
  | .teidd1 => { c.print text with teidd1Found := true }
  | .teidcp => { c.print text with teidcpFound := true }
  | .eua => { c.print text with euaFound := true }

/-- The part of the loop body that prints the value of an element. -/
def printValue (data : Memory) (pos ie : ℕ) (c : Columns) : Columns :=
  let c := if ie = gtpv1IeImsi then c.fill .imsi (Column.imsi.value data pos ++ ",") else c
  let c := if ie = gtpv1IeTeiDataI then c.fill .teidd1 (Column.teidd1.value data pos ++ ",") else c
  let c := if ie = gtpv1IeTeiControlPlane
    then c.fill .teidcp (Column.teidcp.value data pos ++ ",") else c
  if ie = gtpv1IeEndUserAddress ∧ gtpv1EuaLength data pos > gtpv1EuaNoAddressLength
    then c.fill .eua (Column.eua.value data pos) else c

/-- Close a column that was passed without its value. -/
def closeColumn (column : Column) (ie : ℕ) (c : Columns) : Columns :=
  if ie > column.ieType ∧ ¬ c.found column then c.fill column "," else c

theorem closeColumns_eq (ie : ℕ) (c : Columns) :
    closeColumns ie c = closeColumn .teidcp ie (closeColumn .teidd1 ie (closeColumn .imsi ie c)) :=
  rfl

theorem visit_eq (data : Memory) (gtp : ℕ) (v : ElementVisit) (c : Columns) :
    visit data gtp v c = closeColumns v.ie (printValue data (gtp + v.offset) v.ie c) := rfl

@[simp] theorem out_fill (c : Columns) (column : Column) (text : String) :
    (c.fill column text).out = c.out ++ text := by
  cases column <;> rfl

@[simp] theorem found_fill (c : Columns) (column column' : Column) (text : String) :
    (c.fill column text).found column' = (c.found column' || decide (column' = column)) := by
  cases column <;> cases column' <;> simp [Columns.fill, Columns.found, Columns.print]

/-! ## The text of the loop -/

/-- The columns with a text in front of what has been printed. -/
def Columns.behind (c : Columns) (front : String) : Columns := { c with out := front ++ c.out }

theorem found_behind (c : Columns) (front : String) (column : Column) :
    (c.behind front).found column = c.found column := by
  cases column <;> rfl

theorem fill_behind (c : Columns) (front text : String) (column : Column) :
    (c.behind front).fill column text = (c.fill column text).behind front := by
  cases column <;> simp [Columns.fill, Columns.behind, Columns.print, String.append_assoc]

theorem closeColumn_behind (column : Column) (ie : ℕ) (c : Columns) (front : String) :
    closeColumn column ie (c.behind front) = (closeColumn column ie c).behind front := by
  rw [closeColumn, closeColumn, found_behind, fill_behind]
  split <;> rfl

theorem printValue_behind (data : Memory) (pos ie : ℕ) (c : Columns) (front : String) :
    printValue data pos ie (c.behind front) = (printValue data pos ie c).behind front := by
  unfold printValue
  dsimp only
  split_ifs <;> simp only [fill_behind]

theorem visit_behind (data : Memory) (gtp : ℕ) (v : ElementVisit) (c : Columns) (front : String) :
    visit data gtp v (c.behind front) = (visit data gtp v c).behind front := by
  rw [visit_eq, visit_eq, printValue_behind, closeColumns_eq, closeColumns_eq, closeColumn_behind,
    closeColumn_behind, closeColumn_behind]

theorem foldl_visit_behind (data : Memory) (gtp : ℕ) (vs : List ElementVisit) (front : String)
    (c : Columns) :
    vs.foldl (fun c v ↦ visit data gtp v c) (c.behind front)
      = (vs.foldl (fun c v ↦ visit data gtp v c) c).behind front := by
  induction vs generalizing c with
  | nil => rfl
  | cons v vs ih =>
    rw [List.foldl_cons, List.foldl_cons, visit_behind, ih]

theorem exists_out_foldl_visit (data : Memory) (gtp : ℕ) (vs : List ElementVisit) (c : Columns) :
    ∃ rest, (vs.foldl (fun c v ↦ visit data gtp v c) c).out = c.out ++ rest := by
  have hbehind := foldl_visit_behind data gtp vs c.out { c with out := "" }
  rw [Columns.behind, String.append_empty] at hbehind
  exact ⟨_, congrArg Columns.out hbehind⟩

theorem loopColumns_concat (data : Memory) (gtp : ℕ) (es : List Element) (e : Element) :
    loopColumns data gtp (es ++ [e])
      = visit data gtp ⟨e.entry.id, firstElementOffset data gtp + (elementOctets es).length,
        e.body.length⟩ (loopColumns data gtp es) := by
  rw [loopColumns, visitsFrom_append, List.foldl_append]
  rfl

/-- On a completely captured message the handler prints the text of the element loop. -/
theorem decodeGtpPacket_eq_loopText {p : Packet} {gtp : ℕ} {es : List Element}
    (h : CompleteMessage p.header.caplen p.data gtp es) (hne : es ≠ [])
    (htype : messageType p.data gtp ≠ gtpv1MtGPdu) (ctime : ℤ → String) {fuel : ℕ}
    (hfuel : es.length ≤ fuel) :
    decodeGtpPacket ctime fuel p
      = some (frontText ctime p gtp ++ (loopText p.data gtp es ++ "\n")) := by
  have hfold := foldl_visit_behind p.data gtp (visitsFrom (firstElementOffset p.data gtp) es)
    (frontText ctime p gtp) { out := "" }
  rw [Columns.behind, String.append_empty] at hfold
  rw [decodeGtpPacket, h.found]
  simp only [htype, if_false, walk_of_complete _ h hne hfuel, Option.map_some]
  rw [← frontText, hfold, Columns.behind, String.append_assoc]
  rfl

/-! ## Counting commas -/

theorem commas_append (s t : String) : commas (s ++ t) = commas s + commas t := by
  rw [commas, String.toList_append, List.count_append]
  rfl

private theorem commas_comma : commas "," = 1 := by decide

private theorem commas_of_isDigit {s : String} (h : ∀ c ∈ s.toList, c.isDigit) : commas s = 0 :=
  List.count_eq_zero.mpr fun hcomma ↦ absurd (h _ hcomma) (by decide)

private theorem commas_toString (n : ℕ) : commas (toString n) = 0 :=
  commas_of_isDigit fun c hc ↦ by
    rw [toList_toString] at hc
    exact Nat.isDigit_of_mem_toDigits (by norm_num) (by norm_num) hc

private theorem commas_dotted (octet : ℕ → UInt8) : commas (dotted octet) = 0 := by
  have hdot : commas "." = 0 := by decide
  simp only [dotted, commas_append, commas_toString, hdot]

private theorem comma_notMem_toDigits (n : ℕ) : ',' ∉ Nat.toDigits 16 n := by
  have hdigit : ∀ d < 16, ',' ≠ Nat.digitChar d := by decide
  induction n using Nat.strongRecOn with
  | ind n ih =>
    rw [Nat.toDigits_eq_if (by norm_num)]
    split
    · rename_i hlt
      exact fun hmem ↦ hdigit n hlt (List.mem_singleton.mp hmem)
    · rename_i hge
      rw [List.mem_append, not_or]
      refine ⟨ih (n / 16) (by omega), fun hmem ↦ ?_⟩
      exact hdigit (n % 16) (by omega) (List.mem_singleton.mp hmem)

private theorem commas_hexString (n : ℕ) : commas (hexString n) = 0 := by
  rw [commas, hexString, String.toList_ofList]
  exact List.count_eq_zero.mpr (comma_notMem_toDigits n)

private theorem commas_imsi2str (data : Memory) (pos : ℕ) : commas (imsi2str data pos) = 0 :=
  commas_of_isDigit isDigit_of_mem_imsi2str

/-! ## Closed columns -/

/-- The number of columns in front of the last one that are closed. -/
def Columns.closed (c : Columns) : ℕ :=
  (c.found .imsi).toNat + (c.found .teidd1).toNat + (c.found .teidcp).toNat

/-- The text of a column: one comma behind or in place of its value, but none for the last. -/
private theorem commas_fill {c : Columns} {column : Column} {text : String}
    (htext : commas text = if column = .eua then 0 else 1)
    (hopen : column ≠ .eua → c.found column = false) :
    commas (c.fill column text).out + c.closed = commas c.out + (c.fill column text).closed := by
  rw [out_fill, commas_append, htext]
  simp only [Columns.closed, found_fill]
  cases column <;> simp_all <;> omega

theorem commas_closeColumn {column : Column} (h : column ≠ .eua) (ie : ℕ) (c : Columns) :
    commas (closeColumn column ie c).out + c.closed
      = commas c.out + (closeColumn column ie c).closed := by
  rw [closeColumn]
  split
  · rename_i hclose
    exact commas_fill (by rw [commas_comma, if_neg h]) fun _ ↦ by simpa using hclose.2
  · rfl

theorem found_closeColumn (column column' : Column) (ie : ℕ) (c : Columns) :
    (closeColumn column ie c).found column'
      = (c.found column' || (decide (column' = column) && decide (column.ieType < ie))) := by
  rw [closeColumn]
  split
  · rename_i hclose
    rw [found_fill, decide_eq_true hclose.1, Bool.and_true]
  · rename_i hclose
    by_cases hcolumn : column' = column
    · subst hcolumn
      by_cases hfound : c.found column' = true
      · simp [hfound]
      · simp_all
    · simp [hcolumn]

/-- A comma is printed for each column that is closed without a value. -/
theorem commas_closeColumns (ie : ℕ) (c : Columns) :
    commas (closeColumns ie c).out + c.closed = commas c.out + (closeColumns ie c).closed := by
  have himsi := commas_closeColumn (show Column.imsi ≠ .eua from by decide) ie c
  have hteidd1 := commas_closeColumn (show Column.teidd1 ≠ .eua from by decide) ie
    (closeColumn .imsi ie c)
  have hteidcp := commas_closeColumn (show Column.teidcp ≠ .eua from by decide) ie
    (closeColumn .teidd1 ie (closeColumn .imsi ie c))
  rw [closeColumns_eq]
  omega

theorem found_closeColumns (ie : ℕ) (c : Columns) {column : Column} (h : column ≠ .eua) :
    (closeColumns ie c).found column = (c.found column || decide (column.ieType < ie)) := by
  simp only [closeColumns_eq, found_closeColumn]
  cases column <;> simp_all

private theorem ieType_injective {column column' : Column}
    (h : column.ieType = column'.ieType) : column = column' := by
  cases column <;> cases column' <;> first | rfl | exact absurd h (by decide)

/-- An element of a column's type fills the column, unless it is an end user address without an
address. -/
theorem printValue_of_ieType (data : Memory) (pos : ℕ) (c : Columns) (column : Column) :
    printValue data pos column.ieType c
      = if column = .eua then
          if gtpv1EuaLength data pos > gtpv1EuaNoAddressLength
          then c.fill .eua (Column.eua.value data pos) else c
        else c.fill column (column.value data pos ++ ",") := by
  cases column <;>
    simp [printValue, Column.ieType, gtpv1IeImsi, gtpv1IeTeiDataI, gtpv1IeTeiControlPlane,
      gtpv1IeEndUserAddress]

theorem printValue_of_ne (data : Memory) (pos : ℕ) {ie : ℕ} (c : Columns)
    (h : ∀ column : Column, column.ieType ≠ ie) : printValue data pos ie c = c := by
  have himsi : ie ≠ gtpv1IeImsi := (h .imsi).symm
  have hteidd1 : ie ≠ gtpv1IeTeiDataI := (h .teidd1).symm
  have hteidcp : ie ≠ gtpv1IeTeiControlPlane := (h .teidcp).symm
  have heua : ie ≠ gtpv1IeEndUserAddress := (h .eua).symm
  simp [printValue, himsi, hteidd1, hteidcp, heua]

private theorem commas_value (data : Memory) (pos : ℕ) (column : Column) :
    commas (column.value data pos) = 0 := by
  cases column with
  | imsi => exact commas_imsi2str data pos
  | teidd1 => exact commas_hexString _
  | teidcp => exact commas_hexString _
  | eua => exact commas_dotted _

theorem commas_printValue (data : Memory) (pos ie : ℕ) (c : Columns)
    (hopen : ∀ column : Column, column.ieType = ie → column ≠ .eua → c.found column = false) :
    commas (printValue data pos ie c).out + c.closed
      = commas c.out + (printValue data pos ie c).closed := by
  by_cases hcolumn : ∃ column : Column, column.ieType = ie
  · obtain ⟨column, rfl⟩ := hcolumn
    rw [printValue_of_ieType]
    split_ifs with heua haddress
    · exact commas_fill (by rw [commas_value, if_pos rfl]) fun h ↦ absurd rfl h
    · rfl
    · refine commas_fill ?_ (hopen column rfl)
      rw [commas_append, commas_value, commas_comma, if_neg heua]
  · rw [printValue_of_ne data pos c (not_exists.mp hcolumn)]

theorem found_printValue (data : Memory) (pos ie : ℕ) (c : Columns) {column : Column}
    (h : column ≠ .eua) :
    (printValue data pos ie c).found column = (c.found column || decide (column.ieType = ie)) := by
  by_cases hcolumn : ∃ column' : Column, column'.ieType = ie
  · obtain ⟨column', rfl⟩ := hcolumn
    have hiff : column.ieType = column'.ieType ↔ column = column' :=
      ⟨ieType_injective, fun heq ↦ by rw [heq]⟩
    rw [printValue_of_ieType, decide_eq_decide.mpr hiff]
    split_ifs with heua haddress
    · subst heua
      rw [found_fill]
    · subst heua
      rw [decide_eq_false h, Bool.or_false]
    · rw [found_fill]
  · rw [printValue_of_ne data pos c (not_exists.mp hcolumn),
      decide_eq_false (not_exists.mp hcolumn column), Bool.or_false]

/-! ## What the loop has done -/

/-- After the elements `es` the columns up to the greatest type seen are closed, and there is a
comma for each of them. -/
structure Tracks (es : List Element) (c : Columns) : Prop where
  /-- The flags. -/
  found : ∀ column : Column, column ≠ .eua →
    c.found column = es.any fun e ↦ decide (column.ieType ≤ e.entry.id)
  /-- The commas. -/
  commas_eq : commas c.out = c.closed

/-- One iteration, for an element of no smaller type than those before it and not of a column's
type that was seen. -/
theorem Tracks.visit {es : List Element} {c : Columns} (h : Tracks es c) {data : Memory}
    {gtp offset : ℕ} {e : Element}
    (hnew : ∀ column : Column, column.ieType = e.entry.id → ∀ e' ∈ es,
      e'.entry.id < column.ieType) :
    Tracks (es ++ [e]) (visit data gtp ⟨e.entry.id, offset, e.body.length⟩ c) := by
  have hopen : ∀ column : Column, column.ieType = e.entry.id → column ≠ .eua →
      c.found column = false := by
    intro column hcolumn hne
    rw [h.found column hne, List.any_eq_false]
    intro e' he'
    have hlt := hnew column hcolumn e' he'
    simpa using hlt
  refine ⟨fun column hne ↦ ?_, ?_⟩
  · rw [visit_eq, found_closeColumns _ _ hne, found_printValue _ _ _ _ hne, h.found column hne,
      List.any_append, Bool.or_assoc]
    congr 1
    rw [← Bool.decide_or, List.any_cons, List.any_nil, Bool.or_false]
    dsimp only
    exact decide_eq_decide.mpr (by omega)
  · have hprint := commas_printValue data (gtp + offset) e.entry.id c hopen
    have hclose := commas_closeColumns e.entry.id (printValue data (gtp + offset) e.entry.id c)
    have hcommas := h.commas_eq
    rw [visit_eq]
    dsimp only
    omega

/-- The elements come in ascending order of their types, and none of the four columns has more than
one. -/
structure Ascending (es : List Element) : Prop where
  /-- The types do not decrease. -/
  sorted : es.Pairwise fun e e' ↦ e.entry.id ≤ e'.entry.id
  /-- An element of a column comes at most once. -/
  once : ∀ column : Column, es.countP (fun e ↦ e.entry.id = column.ieType) ≤ 1

theorem Ascending.lt_ieType {es₁ es₂ : List Element} {e : Element} {column : Column}
    (h : Ascending (es₁ ++ e :: es₂)) (hcolumn : column.ieType = e.entry.id) :
    ∀ e' ∈ es₁, e'.entry.id < column.ieType := by
  intro e' he'
  have hle : e'.entry.id ≤ e.entry.id :=
    (List.pairwise_append.mp h.sorted).2.2 e' he' e List.mem_cons_self
  have honce := h.once column
  rw [List.countP_append, List.countP_cons_of_pos (by simp [hcolumn])] at honce
  have hzero : es₁.countP (fun e ↦ e.entry.id = column.ieType) = 0 := by omega
  have hne : ¬ e'.entry.id = column.ieType := by simpa using List.countP_eq_zero.mp hzero e' he'
  omega

theorem Ascending.left {es₁ es₂ : List Element} (h : Ascending (es₁ ++ es₂)) : Ascending es₁ := by
  refine ⟨(List.pairwise_append.mp h.sorted).1, fun column ↦ ?_⟩
  have honce := h.once column
  rw [List.countP_append] at honce
  omega

theorem tracks_loopColumns (data : Memory) (gtp : ℕ) {es : List Element} (h : Ascending es) :
    Tracks es (loopColumns data gtp es) := by
  induction es using List.reverseRecOn with
  | nil => exact ⟨fun column _ ↦ by cases column <;> rfl, rfl⟩
  | append_singleton es e ih =>
    rw [loopColumns_concat]
    exact (ih h.left).visit fun column hcolumn ↦ h.lt_ieType hcolumn

/-! ## Alignment -/

section Aligned

variable {data : Memory} {gtp base : ℕ} {es₁ es₂ : List Element} {e : Element} {column : Column}

theorem valueColumn_eq_some_iff : valueColumn e = some column ↔
    e.entry.id = column.ieType ∧ (column = .eua → e.body.length > gtpv1EuaNoAddressLength) := by
  unfold valueColumn
  cases column <;> split_ifs <;>
    simp_all [Column.ieType, gtpv1IeImsi, gtpv1IeTeiDataI, gtpv1IeTeiControlPlane,
      gtpv1IeEndUserAddress]

private theorem holds_octets (h : data.Holds base (elementOctets (es₁ ++ e :: es₂))) :
    data.Holds (base + (elementOctets es₁).length) e.octets := by
  rw [elementOctets, List.flatMap_append, Memory.holds_append] at h
  exact (Memory.holds_append.mp h.2).1

private theorem exists_out_printValue {pos : ℕ} (h : data.Holds pos e.octets)
    (hvalue : valueColumn e = some column) (c : Columns) :
    ∃ rest, (printValue data pos e.entry.id c).out = c.out ++ (column.value data pos ++ rest) := by
  obtain ⟨hid, haddress⟩ := valueColumn_eq_some_iff.mp hvalue
  rw [hid, printValue_of_ieType]
  by_cases heua : column = .eua
  · subst heua
    have hlength : gtpv1EuaLength data pos = e.body.length := by
      have hbody := bodyLength_of_holds h
      rwa [hid, if_pos (show Column.eua.ieType ≥ gtpv1FirstTlvIe from by decide)] at hbody
    rw [if_pos rfl, if_pos (by rw [hlength]; exact haddress rfl), out_fill]
    exact ⟨"", by rw [String.append_empty]⟩
  · rw [if_neg heua, out_fill]
    exact ⟨",", rfl⟩

private theorem exists_out_closeColumn (column : Column) (ie : ℕ) (c : Columns) :
    ∃ rest, (closeColumn column ie c).out = c.out ++ rest ∧ ∀ x ∈ rest.toList, x = ',' := by
  rw [closeColumn]
  split
  · exact ⟨",", out_fill c column ",", by simp⟩
  · exact ⟨"", by rw [String.append_empty], by simp⟩

theorem exists_out_closeColumns (ie : ℕ) (c : Columns) :
    ∃ rest, (closeColumns ie c).out = c.out ++ rest ∧ ∀ x ∈ rest.toList, x = ',' := by
  obtain ⟨rest₁, h₁, hcommas₁⟩ := exists_out_closeColumn .imsi ie c
  obtain ⟨rest₂, h₂, hcommas₂⟩ := exists_out_closeColumn .teidd1 ie (closeColumn .imsi ie c)
  obtain ⟨rest₃, h₃, hcommas₃⟩ := exists_out_closeColumn .teidcp ie
    (closeColumn .teidd1 ie (closeColumn .imsi ie c))
  refine ⟨rest₁ ++ rest₂ ++ rest₃, ?_, ?_⟩
  · rw [closeColumns_eq, h₃, h₂, h₁, String.append_assoc, String.append_assoc, String.append_assoc]
  · intro x hx
    simp only [String.toList_append, List.mem_append] at hx
    rcases hx with (hx | hx) | hx
    · exact hcommas₁ x hx
    · exact hcommas₂ x hx
    · exact hcommas₃ x hx

/-- A value stands behind the text of the elements in front of it. -/
theorem exists_loopText_eq
    (h : data.Holds (gtp + firstElementOffset data gtp) (elementOctets (es₁ ++ e :: es₂)))
    (hvalue : valueColumn e = some column) :
    ∃ rest, loopText data gtp (es₁ ++ e :: es₂) = loopText data gtp es₁
      ++ column.value data (gtp + (firstElementOffset data gtp + (elementOctets es₁).length))
      ++ rest := by
  have hsplit : loopColumns data gtp (es₁ ++ e :: es₂)
      = (visitsFrom (firstElementOffset data gtp + (elementOctets (es₁ ++ [e])).length) es₂).foldl
          (fun c v ↦ visit data gtp v c) (loopColumns data gtp (es₁ ++ [e])) := by
    rw [List.append_cons, loopColumns, visitsFrom_append, List.foldl_append]
    rfl
  obtain ⟨rest₃, h₃⟩ := exists_out_foldl_visit data gtp
    (visitsFrom (firstElementOffset data gtp + (elementOctets (es₁ ++ [e])).length) es₂)
    (loopColumns data gtp (es₁ ++ [e]))
  have hholds := holds_octets h
  rw [Nat.add_assoc] at hholds
  obtain ⟨rest₁, h₁⟩ := exists_out_printValue hholds hvalue (loopColumns data gtp es₁)
  obtain ⟨rest₂, h₂, -⟩ := exists_out_closeColumns e.entry.id (printValue data
    (gtp + (firstElementOffset data gtp + (elementOctets es₁).length)) e.entry.id
    (loopColumns data gtp es₁))
  refine ⟨rest₁ ++ rest₂ ++ rest₃, ?_⟩
  rw [loopText, hsplit, h₃, loopColumns_concat, visit_eq, h₂, h₁, ← loopText]
  simp only [String.append_assoc]

/-- The columns in front of a value are closed exactly when the one next to it is. -/
private theorem closed_eq_index_iff {c : Columns} (h : Tracks es₁ c)
    (hlt : ∀ e' ∈ es₁, e'.entry.id < column.ieType) :
    c.closed = column.index ↔ ∀ previous : Column, previous.index + 1 = column.index →
      ∃ e' ∈ es₁, previous.ieType ≤ e'.entry.id := by
  have hfound : ∀ column' : Column, column' ≠ .eua →
      (c.found column' = true ↔ ∃ e' ∈ es₁, column'.ieType ≤ e'.entry.id) := by
    intro column' hne
    rw [h.found column' hne, List.any_eq_true]
    simp only [decide_eq_true_eq]
  -- the column itself and those behind it are still open
  have hopen : ∀ column' : Column, column' ≠ .eua → column.ieType ≤ column'.ieType →
      c.found column' = false := by
    intro column' hne hle
    rw [← Bool.not_eq_true, hfound column' hne]
    rintro ⟨e', he', hid⟩
    have := hlt e' he'
    omega
  -- columns close in their order
  have hmono : ∀ column₁ column₂ : Column, column₁ ≠ .eua → column₂ ≠ .eua →
      column₁.ieType ≤ column₂.ieType → c.found column₂ = true → c.found column₁ = true := by
    intro column₁ column₂ hne₁ hne₂ hle htrue
    obtain ⟨e', he', hid⟩ := (hfound column₂ hne₂).mp htrue
    exact (hfound column₁ hne₁).mpr ⟨e', he', le_trans hle hid⟩
  have hprevious : (∀ previous : Column, previous.index + 1 = column.index →
      ∃ e' ∈ es₁, previous.ieType ≤ e'.entry.id)
      ↔ ∀ previous : Column, previous.index + 1 = column.index → c.found previous = true := by
    refine forall_congr' fun previous ↦ imp_congr_right fun hindex ↦ ?_
    rw [hfound previous]
    rintro rfl
    cases column <;> exact absurd hindex (by decide)
  have himsi := hmono .imsi .teidd1 (by decide) (by decide) (by decide)
  have hteidd1 := hmono .teidd1 .teidcp (by decide) (by decide) (by decide)
  -- so the number of closed columns says which ones are closed
  rw [hprevious, Columns.closed]
  cases column with
  | imsi =>
    rw [hopen .imsi (by decide) (by decide), hopen .teidd1 (by decide) (by decide),
      hopen .teidcp (by decide) (by decide)]
    exact iff_of_true rfl fun previous hindex ↦ absurd hindex (by simp [Column.index])
  | teidd1 =>
    rw [hopen .teidd1 (by decide) (by decide), hopen .teidcp (by decide) (by decide)]
    constructor
    · intro hclosed previous hindex
      cases previous <;> simp_all [Column.index]
    · intro hall
      rw [hall .imsi rfl]
      rfl
  | teidcp =>
    rw [hopen .teidcp (by decide) (by decide)]
    constructor
    · intro hclosed previous hindex
      cases previous <;> simp_all [Column.index]
      cases hd : c.found .teidd1 <;> cases hi : c.found .imsi <;> simp_all
    · intro hall
      rw [hall .teidd1 rfl, himsi (hall .teidd1 rfl)]
      rfl
  | eua =>
    constructor
    · intro hclosed previous hindex
      cases previous <;> simp_all [Column.index]
      cases hd : c.found .teidd1 <;> cases hi : c.found .imsi <;> cases hc : c.found .teidcp <;>
        simp_all
    · intro hall
      rw [hall .teidcp rfl, hteidd1 (hall .teidcp rfl), himsi (hteidd1 (hall .teidcp rfl))]
      rfl

end Aligned

/-- **When the columns are aligned.** In a GTP-C message whose elements come in ascending order,
with at most one element for each column, every value is printed in its own column exactly when
every value but the IMSI comes behind an element of at least the type of the column in front of its
own. -/
theorem aligned_iff_announced {p : Packet} {gtp : ℕ} {es : List Element}
    (h : CompleteMessage p.header.caplen p.data gtp es)
    (htype : messageType p.data gtp ≠ gtpv1MtGPdu) (hascending : Ascending es) :
    Aligned p gtp es ↔ Announced es := by
  have hclosed : ∀ es₁ e es₂ column, es = es₁ ++ e :: es₂ → valueColumn e = some column →
      (commas (loopText p.data gtp es₁) = column.index ↔
        ∀ previous : Column, previous.index + 1 = column.index →
          ∃ e' ∈ es₁, previous.ieType ≤ e'.entry.id) := by
    intro es₁ e es₂ column heq hvalue
    subst heq
    have htracks := tracks_loopColumns p.data gtp hascending.left
    have hid := (valueColumn_eq_some_iff.mp hvalue).1
    rw [loopText, htracks.commas_eq]
    exact closed_eq_index_iff htracks (hascending.lt_ieType hid.symm)
  constructor
  · intro haligned es₁ e es₂ column heq hvalue
    exact (hclosed es₁ e es₂ column heq hvalue).mp (haligned es₁ e es₂ column heq hvalue).2
  · intro hannounced es₁ e es₂ column heq hvalue
    refine ⟨?_, (hclosed es₁ e es₂ column heq hvalue).mpr
      (hannounced es₁ e es₂ column heq hvalue)⟩
    have hne : es ≠ [] := by
      rw [heq]
      exact List.append_ne_nil_of_right_ne_nil _ (List.cons_ne_nil _ _)
    obtain ⟨rest, hrest⟩ := exists_loopText_eq (heq ▸ h.laid_out) hvalue
    refine ⟨rest ++ "\n", fun ctime fuel hfuel ↦ ?_⟩
    rw [decodeGtpPacket_eq_loopText h hne htype ctime hfuel, heq, hrest]
    simp only [String.append_assoc]

/-- The element that announces an identifier for data. -/
def teidDataElement (teid : UInt32) : Element where
  entry := ⟨gtpv1IeTeiDataI, 1, 4⟩
  body := teidOctets teid
  listed := by decide
  length_of_tv := fun _ ↦ rfl
  length_lt := length_teidOctets_lt teid

/-- A Create PDP Context Request with the elements `es`. -/
def requestOf (es : List Element) : Packet := gtpcFrame gtpv1MtCreatePdpContextRequest [] es

/-- An IMSI and an identifier for data next to it. -/
theorem aligned_imsi_teidd1 :
    Aligned (requestOf [imsiElement fun _ ↦ 1, teidDataElement 5]) 42
      [imsiElement fun _ ↦ 1, teidDataElement 5] := by
  refine (aligned_iff_announced (wellFormed_gtpcFrame gtpv1MtCreatePdpContextRequest []
    [imsiElement fun _ ↦ 1, teidDataElement 5] (by decide)).complete (by decide) ⟨?_, ?_⟩).mpr ?_
  · simp [imsiElement, teidDataElement, gtpv1IeImsi, gtpv1IeTeiDataI]
  · intro column
    cases column <;> decide
  · intro es₁ e es₂ column heq hvalue previous hindex
    cases es₁ with
    | nil =>
      obtain rfl := (List.cons.inj heq).1
      obtain rfl : Column.imsi = column := Option.some.inj hvalue
      exact absurd hindex (Nat.succ_ne_zero _)
    | cons e₁ es₁ =>
      obtain ⟨rfl, htail⟩ := List.cons.inj heq
      cases es₁ with
      | nil =>
        obtain rfl := (List.cons.inj htail).1
        obtain rfl : Column.teidd1 = column := Option.some.inj hvalue
        refine ⟨_, List.mem_cons_self, ?_⟩
        cases previous <;> first | exact le_refl _ | exact absurd hindex (by decide)
      | cons e₂ es₁ => simp at htail

/-- An identifier for the control plane behind an IMSI alone is printed in the column of the
identifier for data. -/
theorem not_aligned_imsi_teidcp :
    CompleteMessage (requestOf [imsiElement fun _ ↦ 1, teidElement 5]).header.caplen
        (requestOf [imsiElement fun _ ↦ 1, teidElement 5]).data 42
        [imsiElement fun _ ↦ 1, teidElement 5] ∧
      Ascending [imsiElement fun _ ↦ 1, teidElement 5] ∧
      ¬ Aligned (requestOf [imsiElement fun _ ↦ 1, teidElement 5]) 42
        [imsiElement fun _ ↦ 1, teidElement 5] := by
  refine ⟨(wellFormed_gtpcFrame _ _ _ (by decide)).complete, ⟨?_, ?_⟩, fun haligned ↦ ?_⟩
  · simp [gtpv1IeImsi, gtpv1IeTeiControlPlane]
  · intro column
    cases column <;> decide
  · have hcommas := (haligned [imsiElement fun _ ↦ 1] (teidElement 5) [] .teidcp rfl rfl).2
    exact absurd hcommas (by decide)

end Decodegtp

end DistributorMerger
