import DistributorMerger.Config.Properties
import DistributorMerger.Ledger.Selection

/-!
# The servers of the merger

`main` of `pcapmerger` reads the hosts and the ports of the distribution servers with two calls of
`get_properties`, compares the two counts, lists the servers in the log and resolves them. A host
and a port belong together because they stand in the same entry of the configured array, but the
program only has two independent scans of the array and their counts.

Two questions are answered for every document. The first is when the pairs that the program forms
are those of the configuration: entries that lack a host or a port shift the rows against each
other without changing the counts. The second is when the counts are under control before they are
used: `get_properties` returns `-1` when it finds nothing, which a `size_t` turns into a count that
no array has, and it writes as many rows as it finds.
-/

namespace DistributorMerger

/-- `MAX_ADDRESSES`: the number of rows of `host_values` and of `port_values`. -/
def maxAddresses : ℕ := 64

/-- `get_sockaddr_in`, where `resolves` says which names `gethostbyname` knows. -/
def getSockaddrIn (resolves : Text → Bool) (serverName : Text) (port : ℤ) : ℤ :=
  if port < 1 ∨ port > highestIpPort then -1
  else if resolves serverName then 0 else -2

/-- `address_list_from_arguments`: the first error met, or the number of servers. -/
def addressListFromArguments (resolves : Text → Bool) (serverCount : ℤ) (hosts ports : List Text) :
    ℤ :=
  -- the first test of the number of servers, after the rows have been written
  if serverCount > maxAddresses then -1
  else
    let results := (List.range serverCount.toNat).map fun i ↦
      getSockaddrIn resolves (hosts.getD i []) (atoi (ports.getD i []))
    (results.find? fun result ↦ result ≠ 0).getD serverCount

/-- How the part of `main` that sets up the servers ends. -/
inductive ServerStart
  /-- The program exits with a status. -/
  | exits (status : ℕ)
  /-- The program goes on with a number of servers. -/
  | continues (servers : ℤ)
  /-- The loop that lists the servers runs past the range of its index. -/
  | overruns
  deriving DecidableEq, Repr

/-- What the part of `main` that sets up the servers does. -/
structure ServerSetup where
  /-- How it ends. -/
  start : ServerStart
  /-- The number of rows of `host_values` that are written, from row zero on. -/
  hostRows : ℕ := 0
  /-- The number of rows of `port_values` that are written, from row zero on. -/
  portRows : ℕ := 0
  /-- The number of rows of both that the listing loop reads, from row zero on. -/
  listed : ℕ := 0
  deriving DecidableEq, Repr

/-- The hosts of the document. -/
def hostValues (doc : Document) : Collected :=
  getProperties doc distributionServerArrayProperty hostProperty

/-- The ports of the document. -/
def portValues (doc : Document) : Collected :=
  getProperties doc distributionServerArrayProperty portProperty

/-- `host_length`: the result as a `short`, then as a `size_t`. -/
def hostLength (doc : Document) : ℕ := toSizeT (toShort (hostValues doc).result)

/-- `port_length`. -/
def portLength (doc : Document) : ℕ := toSizeT (toShort (portValues doc).result)

/-- `main` of `pcapmerger` from reading its configuration to the list of addresses. The index of
the listing loop is an `int`, so a loop that is to run to `2 ^ 31` or further does not end. -/
def pcapmergerServers (resolves : Text → Bool) (doc : Document) : ServerSetup :=
  if readFilterConfig doc ≤ 0 then { start := .exits 1 }
  else
    let hosts := (hostValues doc).rows
    let ports := (portValues doc).rows
    -- the two lengths are the only check of the lists
    if hostLength doc ≠ portLength doc then
      { start := .exits 1, hostRows := hosts.length, portRows := ports.length }
    else if 2 ^ 31 ≤ hostLength doc then
      { start := .overruns, hostRows := hosts.length, portRows := ports.length, listed := 2 ^ 31 }
    else
      let result := addressListFromArguments resolves (toInt (hostLength doc))
        (hosts.map Prod.snd) (ports.map Prod.snd)
      { start := if result ≤ 0 then .exits 1 else .continues result
        hostRows := hosts.length
        portRows := ports.length
        listed := hostLength doc }

/-! ## Counting the entries -/

/-- The entries of the server arrays. -/
def serverEntries (doc : Document) : List (Position × ConfigEntry) :=
  arrayEntries doc distributionServerArrayProperty

/-- The number of server entries with a property. -/
def serverCount (doc : Document) (propName : String) : ℕ :=
  (serverEntries doc).countP (hasProperty propName)

/-- The positions of the entries that the rows were copied from. -/
def Collected.sources (c : Collected) : List Position := c.rows.map Prod.fst

theorem sources_getProperties (doc : Document) (arrayName propName : String) :
    (getProperties doc arrayName propName).sources
      = ((arrayEntries doc arrayName).filter (hasProperty propName)).map Prod.fst := by
  rw [getProperties_eq, Collected.sources, Collected.ofRows]
  exact map_fst_filterMap_rowOf propName _

theorem length_sources (doc : Document) (arrayName propName : String) :
    (getProperties doc arrayName propName).sources.length
      = (arrayEntries doc arrayName).countP (hasProperty propName) := by
  rw [sources_getProperties, List.length_map, List.countP_eq_length_filter]

theorem length_rows (doc : Document) (arrayName propName : String) :
    (getProperties doc arrayName propName).rows.length
      = (arrayEntries doc arrayName).countP (hasProperty propName) := by
  rw [← length_sources, Collected.sources, List.length_map]

/-- The value of `result` after a number of rows. -/
def resultOf (n : ℕ) : ℤ := if n = 0 then -1 else n

theorem result_getProperties (doc : Document) (arrayName propName : String) :
    (getProperties doc arrayName propName).result
      = resultOf ((arrayEntries doc arrayName).countP (hasProperty propName)) := by
  rw [← length_rows, getProperties_eq, Collected.ofRows, resultOf]
  simp only [List.length_eq_zero_iff]

theorem toShort_resultOf_zero : toShort (resultOf 0) = -1 := by decide

theorem toShort_resultOf {n : ℕ} (h : n ≠ 0) : toShort (resultOf n) = toShort n := by
  rw [resultOf, if_neg h]

/-- The check of `main` passes with a positive count exactly when the numbers of entries agree and
are positive as `short` values. -/
theorem check_iff (doc : Document) :
    (hostLength doc = portLength doc ∧ 0 < toShort (hostValues doc).result) ↔
      toShort (serverCount doc hostProperty) = toShort (serverCount doc portProperty) ∧
        0 < toShort (serverCount doc hostProperty) := by
  have hhost : (hostValues doc).result = resultOf (serverCount doc hostProperty) :=
    result_getProperties doc _ _
  have hport : (portValues doc).result = resultOf (serverCount doc portProperty) :=
    result_getProperties doc _ _
  have hzero : toShort ((0 : ℕ) : ℤ) = 0 := by decide
  rw [hostLength, portLength, toSizeT_toShort_inj, hhost, hport]
  by_cases hh : serverCount doc hostProperty = 0
  · rw [hh, toShort_resultOf_zero, hzero]
    omega
  · rw [toShort_resultOf hh]
    by_cases hp : serverCount doc portProperty = 0
    · rw [hp, toShort_resultOf_zero, hzero]
      omega
    · rw [toShort_resultOf hp]

/-! ## Hosts and ports of one entry -/

/-- If the counts agree and are positive, the host and the port of each row stand in the same
entry, and every entry with a host is among the rows counted. -/
def HostsPortsPaired (doc : Document) : Prop :=
  hostLength doc = portLength doc → 0 < toShort (hostValues doc).result →
    (∀ i < hostLength doc, ∃ position, (hostValues doc).sources[i]? = some position ∧
      (portValues doc).sources[i]? = some position) ∧
    ∀ e ∈ serverEntries doc, hasProperty hostProperty e →
      ∃ i < hostLength doc, (hostValues doc).sources[i]? = some e.1

/-- The entries with a host are, in order, the first ones with a port, and their number is within a
`short`. -/
structure HostsLeadPorts (doc : Document) : Prop where
  /-- The number of hosts does not wrap. -/
  count : serverCount doc hostProperty < 2 ^ 15
  /-- An entry with a host has a port, and one with a port that stands in front of an entry with a
  host has a host. -/
  leads : LeadsSelection (hasProperty hostProperty) (hasProperty portProperty) (serverEntries doc)

theorem sources_hostValues (doc : Document) :
    (hostValues doc).sources
      = ((serverEntries doc).filter (hasProperty hostProperty)).map Prod.fst :=
  sources_getProperties doc _ _

theorem sources_portValues (doc : Document) :
    (portValues doc).sources
      = ((serverEntries doc).filter (hasProperty portProperty)).map Prod.fst :=
  sources_getProperties doc _ _

theorem length_sources_hostValues (doc : Document) :
    (hostValues doc).sources.length = serverCount doc hostProperty := length_sources doc _ _

theorem nodup_sources_hostValues (doc : Document) : (hostValues doc).sources.Nodup := by
  rw [sources_hostValues]
  exact (nodup_positions doc _).sublist (List.filter_sublist.map Prod.fst)

/-- The hosts lead the ports exactly when the rows of the hosts come from the entries of the first
rows of the ports. -/
theorem leadsSelection_iff_sources (doc : Document) :
    LeadsSelection (hasProperty hostProperty) (hasProperty portProperty) (serverEntries doc) ↔
      (hostValues doc).sources <+: (portValues doc).sources := by
  rw [sources_hostValues, sources_portValues]
  exact (map_filter_prefix_iff (nodup_positions doc _)).symm

theorem hostLength_of_check {doc : Document} (hpos : 0 < toShort (serverCount doc hostProperty)) :
    (hostLength doc : ℤ) = toShort (serverCount doc hostProperty) := by
  have hne : serverCount doc hostProperty ≠ 0 := by
    intro hzero
    rw [hzero] at hpos
    exact absurd hpos (by decide)
  have hresult : (hostValues doc).result = resultOf (serverCount doc hostProperty) :=
    result_getProperties doc _ _
  have hbounds := toShort_bounds (serverCount doc hostProperty)
  rw [hostLength, hresult, toShort_resultOf hne, toSizeT_of_nonneg (by omega) (by omega)]

/-- If every entry with a host is among the rows counted, no row is left out of the count. -/
theorem serverCount_le_hostLength {doc : Document}
    (h : ∀ e ∈ serverEntries doc, hasProperty hostProperty e →
      ∃ i < hostLength doc, (hostValues doc).sources[i]? = some e.1) :
    serverCount doc hostProperty ≤ hostLength doc := by
  by_contra hle
  have hlt : hostLength doc < (hostValues doc).sources.length := by
    rw [length_sources_hostValues]
    omega
  -- the first row behind the count comes from an entry that a row in front of it comes from too
  obtain ⟨position, hrow⟩ : ∃ position, (hostValues doc).sources[hostLength doc]? = some position :=
    ⟨_, List.getElem?_eq_getElem hlt⟩
  have hsource := List.mem_of_getElem? hrow
  rw [sources_hostValues] at hsource
  obtain ⟨e, he, hposition⟩ := List.mem_map.mp hsource
  obtain ⟨hmem, hhas⟩ := List.mem_filter.mp he
  obtain ⟨i, hi, hsame⟩ := h e hmem hhas
  have hne := List.nodup_iff_getElem?_ne_getElem?.mp (nodup_sources_hostValues doc) i _ hi hlt
  exact hne (by rw [hsame, hrow, hposition])

/-- **When hosts and ports stay paired.** If the numbers of hosts and ports pass the check with a
positive count, the rows are paired as in the document exactly when the entries with a host are the
first ones with a port and their number is within a `short`. For fewer than `2 ^ 15` ports that
means that every entry has both or neither. -/
theorem hostsPortsPaired_iff (doc : Document) :
    HostsPortsPaired doc ↔
      (toShort (serverCount doc hostProperty) = toShort (serverCount doc portProperty) →
        0 < toShort (serverCount doc hostProperty) → HostsLeadPorts doc) := by
  constructor
  · intro hpaired heq hpos
    obtain ⟨hcheck, hresult⟩ := (check_iff doc).mpr ⟨heq, hpos⟩
    obtain ⟨hsame, hpresent⟩ := hpaired hcheck hresult
    have hlength := hostLength_of_check hpos
    have hle := serverCount_le_hostLength hpresent
    have hbounds := toShort_bounds (serverCount doc hostProperty)
    refine ⟨by omega, (leadsSelection_iff_sources doc).mpr (List.prefix_iff_getElem?.mpr ?_)⟩
    intro i hi
    rw [length_sources_hostValues] at hi
    obtain ⟨position, hhost, hport⟩ := hsame i (by omega)
    rw [hport, ← hhost, List.getElem?_eq_getElem]
  · intro hleads hcheck hresult
    obtain ⟨heq, hpos⟩ := (check_iff doc).mp ⟨hcheck, hresult⟩
    obtain ⟨hcount, hlead⟩ := hleads heq hpos
    have hlength : hostLength doc = serverCount doc hostProperty := by
      have := hostLength_of_check hpos
      rw [toShort_of_lt hcount] at this
      omega
    rw [hlength, ← length_sources_hostValues]
    have hprefix := List.prefix_iff_getElem?.mp ((leadsSelection_iff_sources doc).mp hlead)
    refine ⟨fun i hi ↦ ⟨_, List.getElem?_eq_getElem hi, hprefix i hi⟩, fun e he hhas ↦ ?_⟩
    have hsource : e.1 ∈ (hostValues doc).sources := by
      rw [sources_hostValues]
      exact List.mem_map_of_mem (List.mem_filter.mpr ⟨he, hhas⟩)
    obtain ⟨i, hi, hrow⟩ := List.mem_iff_getElem.mp hsource
    exact ⟨i, hi, hrow ▸ List.getElem?_eq_getElem hi⟩

/-- Two entries, one with a host only and one with a port only, are taken for one server. -/
theorem not_hostsPortsPaired_split_entries :
    ¬ HostsPortsPaired [[(distributionServerArrayProperty,
      ⟨"[ ]".toList, [[(hostProperty, "\"10.0.0.1\"".toList)],
        [(portProperty, "\"22222\"".toList)]]⟩)]] := by
  intro h
  obtain ⟨hsame, -⟩ := h (by decide) (by decide)
  obtain ⟨position, hhost, hport⟩ := hsame 0 (by decide)
  have hfirst : position = (0, 0) := Option.some.inj (hhost.symm.trans (by decide))
  have hsecond : position = (0, 1) := Option.some.inj (hport.symm.trans (by decide))
  exact absurd (hfirst.symm.trans hsecond) (by decide)

/-! ## The counts are validated before use -/

/-- The program exits with an error or goes on with a number of servers for which there is room,
and uses no row that the arrays do not have. -/
structure ServersValidated (s : ServerSetup) : Prop where
  /-- It exits or goes on with an admissible number. -/
  start : s.start = .exits 1 ∨ ∃ n : ℤ, s.start = .continues n ∧ 1 ≤ n ∧ n ≤ maxAddresses
  /-- No row of `host_values` past the last is written. -/
  hostRows : s.hostRows ≤ maxAddresses
  /-- No row of `port_values` past the last is written. -/
  portRows : s.portRows ≤ maxAddresses
  /-- No row past the last is listed. -/
  listed : s.listed ≤ maxAddresses

theorem getSockaddrIn_nonpos (resolves : Text → Bool) (serverName : Text) (port : ℤ) :
    getSockaddrIn resolves serverName port ≤ 0 := by
  unfold getSockaddrIn
  split_ifs <;> omega

theorem addressListFromArguments_pos {resolves : Text → Bool} {count : ℤ} {hosts ports : List Text}
    (h : 0 < addressListFromArguments resolves count hosts ports) :
    addressListFromArguments resolves count hosts ports = count ∧ count ≤ maxAddresses := by
  unfold addressListFromArguments at h ⊢
  by_cases hcount : count > maxAddresses
  · rw [if_pos hcount] at h
    omega
  · rw [if_neg hcount] at h ⊢
    dsimp only at h ⊢
    cases hfind : ((List.range count.toNat).map fun i ↦ getSockaddrIn resolves (hosts.getD i [])
        (atoi (ports.getD i []))).find? fun result ↦ result ≠ 0 with
    | none => exact ⟨rfl, not_lt.mp hcount⟩
    | some result =>
      rw [hfind, Option.getD_some] at h
      obtain ⟨i, -, rfl⟩ := List.mem_map.mp (List.mem_of_find?_eq_some hfind)
      exact absurd (getSockaddrIn_nonpos _ _ _) (not_le.mpr h)

/-- The count that `main` works with, for fewer rows than a `short` can count. -/
theorem toSizeT_resultOf {n : ℕ} (h : n < 2 ^ 15) :
    toSizeT (toShort (resultOf n)) = if n = 0 then 2 ^ 64 - 1 else n := by
  by_cases hzero : n = 0
  · rw [hzero, if_pos rfl, toShort_resultOf_zero]
    decide
  · rw [if_neg hzero, toShort_resultOf hzero, toShort_of_lt h, toSizeT]
    omega

theorem hostLength_eq (doc : Document) :
    hostLength doc = toSizeT (toShort (resultOf (serverCount doc hostProperty))) := by
  rw [hostLength, hostValues, result_getProperties]
  rfl

theorem portLength_eq (doc : Document) :
    portLength doc = toSizeT (toShort (resultOf (serverCount doc portProperty))) := by
  rw [portLength, portValues, result_getProperties]
  rfl

theorem rows_pcapmergerServers (resolves : Text → Bool) {doc : Document}
    (hread : ¬ readFilterConfig doc ≤ 0) :
    (pcapmergerServers resolves doc).hostRows = serverCount doc hostProperty ∧
      (pcapmergerServers resolves doc).portRows = serverCount doc portProperty := by
  have hhosts : (hostValues doc).rows.length = serverCount doc hostProperty := length_rows doc _ _
  have hports : (portValues doc).rows.length = serverCount doc portProperty := length_rows doc _ _
  rw [pcapmergerServers, if_neg hread]
  dsimp only
  split_ifs <;> exact ⟨hhosts, hports⟩

/-- If there are not too many hosts and ports and not none of both, a count that passes the check is
within the arrays. -/
theorem hostLength_le_of_check {doc : Document}
    (hhosts : serverCount doc hostProperty ≤ maxAddresses)
    (hports : serverCount doc portProperty ≤ maxAddresses)
    (hsome : ¬ (serverCount doc hostProperty = 0 ∧ serverCount doc portProperty = 0))
    (hcheck : hostLength doc = portLength doc) : hostLength doc ≤ maxAddresses := by
  have hsmall : maxAddresses < 2 ^ 15 := by decide
  rw [hostLength_eq, portLength_eq, toSizeT_resultOf (Nat.lt_of_le_of_lt hhosts hsmall),
    toSizeT_resultOf (Nat.lt_of_le_of_lt hports hsmall)] at hcheck
  rw [hostLength_eq, toSizeT_resultOf (Nat.lt_of_le_of_lt hhosts hsmall)]
  rw [maxAddresses] at *
  split_ifs at hcheck ⊢ with hhost hport
  · exact absurd ⟨hhost, hport⟩ hsome
  · omega
  · omega
  · omega

/-- **When the number of servers is validated before use.** It is so exactly for the documents that
are rejected at once for the number of their elements, and for those with at most `MAX_ADDRESSES`
hosts, at most `MAX_ADDRESSES` ports, and at least one host or port. -/
theorem serversValidated_iff (resolves : Text → Bool) (doc : Document) :
    ServersValidated (pcapmergerServers resolves doc) ↔
      readFilterConfig doc ≤ 0 ∨
        (serverCount doc hostProperty ≤ maxAddresses ∧ serverCount doc portProperty ≤ maxAddresses ∧
          ¬ (serverCount doc hostProperty = 0 ∧ serverCount doc portProperty = 0)) := by
  by_cases hread : readFilterConfig doc ≤ 0
  · rw [pcapmergerServers, if_pos hread]
    exact ⟨fun _ ↦ Or.inl hread, fun _ ↦ ⟨Or.inl rfl, by decide, by decide, by decide⟩⟩
  obtain ⟨hhostRows, hportRows⟩ := rows_pcapmergerServers resolves hread
  constructor
  · rintro ⟨hstart, hhosts, hports, -⟩
    refine Or.inr ⟨hhostRows ▸ hhosts, hportRows ▸ hports, ?_⟩
    rintro ⟨hhost, hport⟩
    -- both counts are `-1`, so the check passes and the loop is to run to the largest `size_t`
    have hlength : hostLength doc = 2 ^ 64 - 1 := by
      rw [hostLength_eq, hhost, toSizeT_resultOf (by decide), if_pos rfl]
    have hlength' : portLength doc = 2 ^ 64 - 1 := by
      rw [portLength_eq, hport, toSizeT_resultOf (by decide), if_pos rfl]
    have hover : (pcapmergerServers resolves doc).start = .overruns := by
      rw [pcapmergerServers, if_neg hread]
      dsimp only
      rw [if_neg (not_not.mpr (hlength.trans hlength'.symm)), if_pos (by omega)]
    rw [hover] at hstart
    rcases hstart with hexit | ⟨n, hcontinue, -⟩
    · exact absurd hexit (by decide)
    · exact absurd hcontinue (by simp)
  · rintro (hread' | ⟨hhosts, hports, hsome⟩)
    · exact absurd hread' hread
    have hcounted := hostLength_le_of_check hhosts hports hsome
    refine ⟨?_, hhostRows ▸ hhosts, hportRows ▸ hports, ?_⟩
    · rw [pcapmergerServers, if_neg hread]
      dsimp only
      split_ifs with hcheck hover hresult
      · exact Or.inl rfl
      · have := hcounted (not_not.mp hcheck)
        rw [maxAddresses] at this
        omega
      · exact Or.inl rfl
      · obtain ⟨hcount, hroom⟩ := addressListFromArguments_pos (not_le.mp hresult)
        refine Or.inr ⟨_, rfl, not_le.mp hresult, ?_⟩
        rw [hcount]
        exact hroom
    · rw [pcapmergerServers, if_neg hread]
      dsimp only
      split_ifs with hcheck hover
      · exact Nat.zero_le _
      · have := hcounted (not_not.mp hcheck)
        rw [maxAddresses] at this
        omega
      · exact hcounted (not_not.mp hcheck)
      · exact hcounted (not_not.mp hcheck)

/-- The configuration file that is shipped has no servers: its listing runs past the arrays. -/
theorem not_serversValidated_shipped :
    ¬ ServersValidated (pcapmergerServers (fun _ ↦ true)
      [[("untunnel_gtp", ⟨"\"1\"".toList, []⟩),
        ("output_path",
          ⟨"\"\\/var\\/opt\\/ericsson\\/eniq-analysis\\/merged.pcap\"".toList, []⟩),
        (distributionServerArrayProperty, ⟨"[ ]".toList, []⟩)]]) := by
  intro h
  have hlisted := h.listed
  exact absurd hlisted (by decide)

end DistributorMerger
