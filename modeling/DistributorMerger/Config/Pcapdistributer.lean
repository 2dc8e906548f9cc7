import DistributorMerger.Config.Properties

/-!
# The settings of the distributer

`main` of `pcapdistributer` passes four uninitialised buffers to `get_property`, ignores the result
codes and converts what the buffers hold then. The initial contents of the buffers are an argument
here, and the question is when they can be left out: when the settings and the branches that follow
from them depend on the configuration document alone.

`get_property` promises an empty value for a property that is not found, but leaves the buffer as
it was. The settings are therefore those of the document exactly when the document has all four
properties, or is rejected before any of them is read.
-/

namespace DistributorMerger

/-- The contents of the buffer that is passed for each property. -/
abbrev Buffers := String → Text

/-- What `main` obtains from the configuration. -/
structure DistributerSettings where
  /-- `capture_location`. -/
  captureLocation : Text
  /-- `live`. -/
  live : ℤ
  /-- `distribution_port`. -/
  distributionPort : ℤ
  /-- `iterations`. -/
  iterations : ℤ
  deriving DecidableEq, Repr

/-- The branch that `main` takes. -/
inductive DistributerBranch
  /-- The port is invalid and the program exits. -/
  | invalidPort
  /-- Packets are captured from an interface. -/
  | liveCapture (captureLocation : Text)
  /-- Packets are read from the files of a directory. -/
  | fileCapture (captureLocation : Text) (iterations : ℤ)
  deriving DecidableEq, Repr

/-- The port lies in the range of port numbers. -/
def DistributerSettings.portValid (s : DistributerSettings) : Prop :=
  ¬ (s.distributionPort < 1 ∨ s.distributionPort > highestIpPort)

instance (s : DistributerSettings) : Decidable s.portValid := by
  unfold DistributerSettings.portValid
  infer_instance

/-- The settings after the four calls of `get_property` and the conversions. -/
def distributerSettings (doc : Document) (buffers : Buffers) : DistributerSettings :=
  -- the result of `get_property` is not looked at
  let read := fun name ↦ (getProperty doc name (buffers name)).2
  { captureLocation := stripCharFromString (read captureLocationProperty) '\\'
    live := atoi (read liveCaptureProperty)
    distributionPort := atoi (read portProperty)
    iterations := atoi (read fileCaptureIterationsProperty) }

/-- The branch that follows from the settings. -/
def DistributerSettings.branch (s : DistributerSettings) : DistributerBranch :=
  if ¬ s.portValid then .invalidPort
  else if s.live ≠ 0 then .liveCapture s.captureLocation
  else .fileCapture s.captureLocation s.iterations

/-- `main` of `pcapdistributer` from reading its configuration to the choice of the mode: the
settings and the branch, unless the configuration is rejected. -/
def pcapdistributerMain (doc : Document) (buffers : Buffers) :
    Option (DistributerSettings × DistributerBranch) :=
  if readFilterConfig doc ≤ 0 then none
  else some (distributerSettings doc buffers, (distributerSettings doc buffers).branch)

/-- The properties that `main` reads. -/
def distributerProperties : List String :=
  [captureLocationProperty, portProperty, liveCaptureProperty, fileCaptureIterationsProperty]

/-- Some element of the document has the property. -/
def Present (doc : Document) (name : String) : Prop := ∃ element ∈ doc, (element.lookup name).isSome

instance (doc : Document) (name : String) : Decidable (Present doc name) := by
  unfold Present
  infer_instance

/-! ## What `get_property` leaves in the buffer -/

theorem getProperty_of_present {doc : Document} {name : String} (h : Present doc name)
    (value value' : Text) : getProperty doc name value = getProperty doc name value' := by
  obtain ⟨element, helement, hlookup⟩ := h
  have hsome : (doc.findSome? fun element ↦ element.lookup name).isSome :=
    List.findSome?_isSome_iff.mpr ⟨element, helement, hlookup⟩
  obtain ⟨v, hv⟩ := Option.isSome_iff_exists.mp hsome
  rw [getProperty, getProperty, hv]

theorem getProperty_of_not_present {doc : Document} {name : String} (h : ¬ Present doc name)
    (value : Text) : getProperty doc name value = (-1, value) := by
  have hnone : (doc.findSome? fun element ↦ element.lookup name) = none := by
    refine List.findSome?_eq_none_iff.mpr fun element helement ↦ ?_
    refine Option.not_isSome_iff_eq_none.mp fun hlookup ↦ h ⟨element, helement, hlookup⟩
  rw [getProperty, hnone]

/-! ## Depending on the configuration alone -/

/-- The initial contents of the buffers make no difference, and a property that is read and absent
has an empty value. -/
structure DependsOnDocument (doc : Document) : Prop where
  /-- Two runs obtain the same settings and take the same branch. -/
  same : ∀ buffers buffers', pcapdistributerMain doc buffers = pcapdistributerMain doc buffers'
  /-- An absent property yields an empty value. -/
  empty : 0 < readFilterConfig doc → ∀ name ∈ distributerProperties, ¬ Present doc name →
    ∀ value, (getProperty doc name value).2 = []

theorem distributerSettings_of_present {doc : Document}
    (h : ∀ name ∈ distributerProperties, Present doc name) (buffers buffers' : Buffers) :
    distributerSettings doc buffers = distributerSettings doc buffers' := by
  have hread : ∀ name ∈ distributerProperties, getProperty doc name (buffers name)
      = getProperty doc name (buffers' name) :=
    fun name hname ↦ getProperty_of_present (h name hname) _ _
  rw [distributerSettings, distributerSettings]
  dsimp only
  rw [hread captureLocationProperty (by decide), hread portProperty (by decide),
    hread liveCaptureProperty (by decide), hread fileCaptureIterationsProperty (by decide)]

/-- Two runs whose buffers hold different numbers differ in the setting of an absent property. -/
theorem present_of_same {doc : Document}
    (h : distributerSettings doc (fun _ ↦ ['1']) = distributerSettings doc (fun _ ↦ ['2']))
    {name : String} (hname : name ∈ distributerProperties) : Present doc name := by
  by_contra habsent
  have hread := getProperty_of_not_present habsent
  rw [distributerSettings, distributerSettings, DistributerSettings.mk.injEq] at h
  obtain ⟨hlocation, hlive, hport, hiterations⟩ := h
  dsimp only at hlocation hlive hport hiterations
  simp only [distributerProperties, List.mem_cons, List.not_mem_nil, or_false] at hname
  rcases hname with rfl | rfl | rfl | rfl
  · rw [hread, hread] at hlocation
    exact absurd hlocation (by decide)
  · rw [hread, hread] at hport
    exact absurd hport (by decide)
  · rw [hread, hread] at hlive
    exact absurd hlive (by decide)
  · rw [hread, hread] at hiterations
    exact absurd hiterations (by decide)

/-- **When the distributer depends on its configuration alone.** Exactly when the document is
rejected for the number of its elements, or has all four properties that are read. -/
theorem dependsOnDocument_iff (doc : Document) :
    DependsOnDocument doc ↔
      readFilterConfig doc ≤ 0 ∨ ∀ name ∈ distributerProperties, Present doc name := by
  by_cases hread : readFilterConfig doc ≤ 0
  · refine ⟨fun _ ↦ Or.inl hread, fun _ ↦ ⟨fun buffers buffers' ↦ ?_, fun hpos ↦ by omega⟩⟩
    rw [pcapdistributerMain, pcapdistributerMain, if_pos hread, if_pos hread]
  constructor
  · intro h
    refine Or.inr fun name hname ↦ ?_
    have hsame := h.same (fun _ ↦ ['1']) (fun _ ↦ ['2'])
    rw [pcapdistributerMain, pcapdistributerMain, if_neg hread, if_neg hread,
      Option.some.injEq, Prod.mk.injEq] at hsame
    exact present_of_same hsame.1 hname
  · rintro (hread' | hpresent)
    · exact absurd hread' hread
    · refine ⟨fun buffers buffers' ↦ ?_, fun _ name hname habsent ↦
        absurd (hpresent name hname) habsent⟩
      rw [pcapdistributerMain, pcapdistributerMain,
        distributerSettings_of_present hpresent buffers buffers']

/-- The configuration for live capture that is shipped has no iterations: the number obtained is
what the buffer happens to hold. -/
theorem not_dependsOnDocument_shipped :
    ¬ DependsOnDocument [[(liveCaptureProperty, ⟨"\"1\"".toList, []⟩),
      (captureLocationProperty, ⟨"\"en0\"".toList, []⟩),
      (portProperty, ⟨"\"12345\"".toList, []⟩)]] := by
  intro h
  have hsame := h.same (fun _ ↦ ['1']) (fun _ ↦ ['2'])
  exact absurd hsame (by decide)

end DistributorMerger
