import Mathlib
import DistributorMerger.Config.Text

/-!
# Configuration documents and their properties

A configuration file is a JSON array of elements with named values, where a value is a string or an
array of entries with named strings. The library that parses it is not part of the program: a
document is what it delivers, and the text that `json_object_to_json_string` prints for a value
stands in the document in place of the value. A member whose value is `null` is absent for the
library and is left out.

`get_property` looks for a name in the elements in turn and copies the text without its quotes into
the caller's buffer. `get_properties` does so for one name in all entries of all arrays of a given
name, into consecutive rows of the caller's array. Rows are numbered and written without regard to
the size of the array, so which rows are written is part of the result. Each row also carries the
position of the entry that it was copied from, which the program does not keep.
-/

namespace DistributorMerger

/-- An entry of an array: names with the texts of their values. -/
abbrev ConfigEntry := List (String × Text)

/-- A value of a top-level element: its text and, for an array, its entries. -/
structure ConfigValue where
  /-- What `json_object_to_json_string` prints. -/
  text : Text
  /-- The entries of an array. -/
  entries : List ConfigEntry := []
  deriving DecidableEq, Repr

/-- An element of the top-level array. -/
abbrev ConfigElement := List (String × ConfigValue)

/-- A configuration document: its top-level array. -/
abbrev Document := List ConfigElement

/-- The place of an entry: its element and its index in the array there. -/
abbrev Position := ℕ × ℕ

/-! ## Property names -/

/-- `CAPTURE_LOCATION_PROPERTY`. -/
def captureLocationProperty : String := "capture_location"

/-- `HOST_PROPERTY`. -/
def hostProperty : String := "host"

/-- `PORT_PROPERTY`. -/
def portProperty : String := "port"

/-- `LIVE_CAPTURE_PROPERTY`. -/
def liveCaptureProperty : String := "live"

/-- `FILE_CAPTURE_ITERATIONS_PROPERTY`. -/
def fileCaptureIterationsProperty : String := "file_capture_iterations"

/-- `DISTRIBUTION_SERVER_ARRAY_PROPERTY`. -/
def distributionServerArrayProperty : String := "distribution_server_array"

/-- `HIGHEST_IP_PORT`. -/
def highestIpPort : ℤ := 65535

/-! ## Reading a document -/

/-- `read_filter_config` on a file that holds a document: the number of elements. -/
def readFilterConfig (doc : Document) : ℤ := toShort doc.length

/-- `get_property`: the result code and the contents of the buffer, which held `value` before. -/
def getProperty (doc : Document) (name : String) (value : Text) : ℤ × Text :=
  match doc.findSome? fun element ↦ element.lookup name with
  | some v => (0, unquote v.text)
  | none => (-1, value)

/-- The state of the loops of `get_properties`. -/
structure Collected where
  /-- `result`. -/
  result : ℤ := -1
  /-- The rows written so far, each with the entry that it was copied from. -/
  rows : List (Position × Text) := []
  deriving DecidableEq, Repr

/-- The body of the inner loop of `get_properties`. -/
def collectEntry (propName : String) (elementCount : ℕ) (acc : Collected) (e : ConfigEntry × ℕ) :
    Collected :=
  match e.1.lookup propName with
  | some text =>
    -- the first row turns the error into a count
    { result := if acc.result = -1 then 1 else acc.result + 1
      rows := acc.rows ++ [((elementCount, e.2), unquote text)] }
  | none => acc

/-- The body of the outer loop of `get_properties`. -/
def collectElement (arrayName propName : String) (acc : Collected) (x : ConfigElement × ℕ) :
    Collected :=
  match x.1.lookup arrayName with
  | some v => v.entries.zipIdx.foldl (collectEntry propName x.2) acc
  | none => acc

/-- `get_properties`: the rows it writes, and `result` before it is returned as a `short`. -/
def getProperties (doc : Document) (arrayName propName : String) : Collected :=
  doc.zipIdx.foldl (collectElement arrayName propName) {}

/-! ## What the loops collect -/

/-- The entries of the array of a name in one element, with their positions. -/
def elementEntries (arrayName : String) (x : ConfigElement × ℕ) : List (Position × ConfigEntry) :=
  match x.1.lookup arrayName with
  | some v => v.entries.zipIdx.map fun e ↦ ((x.2, e.2), e.1)
  | none => []

/-- The entries of all arrays of a name, in the order in which they are scanned. -/
def arrayEntries (doc : Document) (arrayName : String) : List (Position × ConfigEntry) :=
  doc.zipIdx.flatMap (elementEntries arrayName)

/-- The row that an entry contributes, if it has the property. -/
def rowOf (propName : String) (e : Position × ConfigEntry) : Option (Position × Text) :=
  (e.2.lookup propName).map fun text ↦ (e.1, unquote text)

/-- The entry has the property. -/
def hasProperty (propName : String) (e : Position × ConfigEntry) : Bool :=
  (e.2.lookup propName).isSome

/-- The state in which the given rows have been written. -/
def Collected.ofRows (rows : List (Position × Text)) : Collected :=
  ⟨if rows = [] then -1 else rows.length, rows⟩

theorem Collected.ofRows_concat (rows : List (Position × Text)) (row : Position × Text) :
    Collected.ofRows (rows ++ [row])
      = ⟨if (Collected.ofRows rows).result = -1 then 1 else (Collected.ofRows rows).result + 1,
        rows ++ [row]⟩ := by
  unfold Collected.ofRows
  by_cases hrows : rows = []
  · simp [hrows]
  · have hne : ¬ ((rows.length : ℤ) = -1) := by omega
    simp [hrows, hne]

theorem collectEntry_ofRows (propName : String) (element : ℕ) (rows : List (Position × Text))
    (e : ConfigEntry × ℕ) :
    collectEntry propName element (Collected.ofRows rows) e
      = Collected.ofRows (rows ++ (rowOf propName ((element, e.2), e.1)).toList) := by
  rw [collectEntry, rowOf]
  cases e.1.lookup propName with
  | none => rw [Option.map_none, Option.toList_none, List.append_nil]
  | some text =>
    rw [Option.map_some, Option.toList_some, Collected.ofRows_concat]
    rfl

theorem foldl_collectEntry (propName : String) (element : ℕ) (es : List (ConfigEntry × ℕ))
    (rows : List (Position × Text)) :
    es.foldl (collectEntry propName element) (Collected.ofRows rows)
      = Collected.ofRows (rows ++
        (es.map fun e ↦ (((element, e.2), e.1) : Position × ConfigEntry)).filterMap
          (rowOf propName)) := by
  induction es generalizing rows with
  | nil => rw [List.foldl_nil, List.map_nil, List.filterMap_nil, List.append_nil]
  | cons e es ih =>
    rw [List.foldl_cons, collectEntry_ofRows, ih, List.map_cons, List.filterMap_cons,
      List.append_assoc]
    cases rowOf propName ((element, e.2), e.1) with
    | none => rfl
    | some row => rfl

theorem foldl_collectElement (arrayName propName : String) (xs : List (ConfigElement × ℕ))
    (rows : List (Position × Text)) :
    xs.foldl (collectElement arrayName propName) (Collected.ofRows rows)
      = Collected.ofRows
        (rows ++ (xs.flatMap (elementEntries arrayName)).filterMap (rowOf propName)) := by
  induction xs generalizing rows with
  | nil => rw [List.foldl_nil, List.flatMap_nil, List.filterMap_nil, List.append_nil]
  | cons x xs ih =>
    have hstep : collectElement arrayName propName (Collected.ofRows rows) x
        = Collected.ofRows (rows ++ (elementEntries arrayName x).filterMap (rowOf propName)) := by
      rw [collectElement, elementEntries]
      cases x.1.lookup arrayName with
      | none => rw [List.filterMap_nil, List.append_nil]
      | some v => exact foldl_collectEntry propName x.2 v.entries.zipIdx rows
    rw [List.foldl_cons, hstep, ih, List.flatMap_cons, List.filterMap_append, List.append_assoc]

/-- The rows are those of the entries that have the property, in the order of the scan. -/
theorem getProperties_eq (doc : Document) (arrayName propName : String) :
    getProperties doc arrayName propName
      = Collected.ofRows ((arrayEntries doc arrayName).filterMap (rowOf propName)) :=
  foldl_collectElement arrayName propName doc.zipIdx []

theorem map_fst_filterMap_rowOf (propName : String) (es : List (Position × ConfigEntry)) :
    (es.filterMap (rowOf propName)).map Prod.fst
      = (es.filter (hasProperty propName)).map Prod.fst := by
  induction es with
  | nil => rfl
  | cons e es ih =>
    cases hlookup : e.2.lookup propName with
    | none =>
      have hrow : rowOf propName e = none := by rw [rowOf, hlookup]; rfl
      have hhas : ¬ hasProperty propName e = true := by simp [hasProperty, hlookup]
      rw [List.filterMap_cons_none hrow, List.filter_cons_of_neg hhas, ih]
    | some text =>
      have hrow : rowOf propName e = some (e.1, unquote text) := by rw [rowOf, hlookup]; rfl
      have hhas : hasProperty propName e = true := by rw [hasProperty, hlookup]; rfl
      rw [List.filterMap_cons_some hrow, List.filter_cons_of_pos hhas, List.map_cons, List.map_cons,
        ih]

theorem nodup_zipIdx_snd {α : Type*} (l : List α) : (l.zipIdx.map Prod.snd).Nodup := by
  rw [List.zipIdx_map_snd]
  exact List.nodup_range'

theorem fst_of_mem_elementEntries {arrayName : String} {x : ConfigElement × ℕ} {p : Position}
    (hp : p ∈ (elementEntries arrayName x).map Prod.fst) : p.1 = x.2 := by
  rw [elementEntries] at hp
  cases hlookup : x.1.lookup arrayName with
  | none =>
    rw [hlookup] at hp
    exact absurd hp List.not_mem_nil
  | some v =>
    rw [hlookup] at hp
    obtain ⟨e, he, rfl⟩ := List.mem_map.mp hp
    obtain ⟨e', -, rfl⟩ := List.mem_map.mp he
    rfl

theorem nodup_elementEntries (arrayName : String) (x : ConfigElement × ℕ) :
    ((elementEntries arrayName x).map Prod.fst).Nodup := by
  rw [elementEntries]
  cases x.1.lookup arrayName with
  | none => exact List.nodup_nil
  | some v =>
    dsimp only
    refine List.Nodup.of_map Prod.snd ?_
    rw [List.map_map, List.map_map]
    exact nodup_zipIdx_snd _

theorem nodup_positions (doc : Document) (arrayName : String) :
    ((arrayEntries doc arrayName).map Prod.fst).Nodup := by
  rw [arrayEntries, List.map_flatMap]
  refine List.nodup_flatMap.mpr ⟨fun x _ ↦ nodup_elementEntries arrayName x, ?_⟩
  have hpairs : doc.zipIdx.Pairwise fun x y ↦ x.2 ≠ y.2 :=
    List.pairwise_map.mp (nodup_zipIdx_snd doc)
  refine hpairs.imp fun {x y} hxy p hpx hpy ↦ ?_
  exact hxy ((fst_of_mem_elementEntries hpx).symm.trans (fst_of_mem_elementEntries hpy))

end DistributorMerger
