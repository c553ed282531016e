import IsvValidation.Catalog.Digest
import IsvValidation.Library.Gather
import IsvValidation.Library.Sequence
import IsvValidation.Resolution.Wiring

/-!
# The catalog of the checks

The catalog has one entry for each name which a suite wires, unless no published class answers to the name. An entry
is placed as its suite is, and has the labels and test ids of every configuration which wires its name, its class or
a variant of these. In which order the classes are discovered and the configurations are read plays no part.
-/

namespace IsvValidation.Catalog

open Config Host Library Resolution

/-- A configuration file below `isvctl/configs`; one which cannot be parsed has no data. -/
structure ConfigFile where
  folders : List String
  stem : String
  data : Option Value

/-- A class which discovery finds, with the module which it is from. -/
structure DiscoveredClass where
  name : String
  description : String := ""
  source : String := ""
  catalogExclude : Bool := false

/-- What a catalog is built from, and how a name is spelled in a message. -/
structure Workspace where
  unicode : Unicode
  repr : Scalar → String
  classes : List DiscoveredClass
  /-- The files in the order of their paths. -/
  configs : List ConfigFile

def canonicalSuiteName (unicode : Unicode) (value : String) : String :=
  let normalized := String.ofList ((unicode.lower (unicode.strip value)).toList.map fun c ↦ if c = '-' then '_' else c)
  if normalized = "k8s" then "kubernetes" else normalized

/-! ## The suites -/

/-- The files of `_iter_suite_docs`. -/
def suiteFiles (configs : List ConfigFile) : List ConfigFile := configs.filter fun file ↦ file.folders = ["suites"]

/-- The document of a suite. -/
def suiteData (file : ConfigFile) : Except PyError Value :=
  match file.data with
  | none => .error (.other "YAMLError" file.stem)
  | some data => .ok data.orEmpty

/-- `_declared_capability`. -/
def declaredCapability (data : Value) : Except PyError (Option String) := do
  let tests ← getOrEmpty data "tests"
  match tests.orEmpty.get? "capability" with
  | some (.scalar (.str capability)) => return if capability = "" then none else some capability
  | _ => return none

/-- What the wiring of a name says of its entry. -/
structure Placement where
  suite : String
  capability : Option String
  requires : List Value
  composite : Bool
  description : Value

def suiteOf (unicode : Unicode) (file : ConfigFile) (capability : Option String) : String :=
  capability.getD (canonicalSuiteName unicode file.stem)

/-- The list of `params.get("requires", [])`. -/
def requiredValues (params : Items) : List Value :=
  match params.lookup (.str "requires") with
  | some (.list values) => values
  | _ => []

/-- `params.get("description") or ""`. -/
def wiredDescription (params : Items) : Value :=
  match params.lookup (.str "description") with
  | some description => if description.truthy then description else .str ""
  | none => .str ""

def placementOf (suite : String) (capability : Option String) (params : Items) : Placement where
  suite := suite
  capability := capability
  requires := requiredValues params
  composite := isComposite (.dict params)
  description := wiredDescription params

def placedCheck (suite : String) (capability : Option String) (check : WiredCheck) : Scalar × Placement :=
  (check.name, placementOf suite capability check.params)

section Build

variable (workspace : Workspace)

/-- A name which is placed already is refused. -/
def placeCheck (suite : String) (capability : Option String) (map : List (Scalar × Placement)) (check : WiredCheck) :
    Except PyError (List (Scalar × Placement)) :=
  if check.name ∈ map.map Prod.fst then
    .error (.valueError s!"Suite wiring name {workspace.repr check.name} is not globally unique")
  else .ok (map ++ [placedCheck suite capability check])

def placeFile (map : List (Scalar × Placement)) (file : ConfigFile) : Except PyError (List (Scalar × Placement)) := do
  let data ← suiteData file
  let capability ← declaredCapability data
  let checks ← iterChecksFromData data
  checks.foldlM (placeCheck workspace (suiteOf workspace.unicode file capability) capability) map

/-- `_build_suite_map`. -/
def buildSuiteMap : Except PyError (List (Scalar × Placement)) :=
  (suiteFiles workspace.configs).foldlM (placeFile workspace) []

/-! ## Labels and test ids -/

/-- The labels of `_extract_check_labels_from_config`. -/
def checkLabels (params : Items) : Finset String :=
  match params.lookup (.str "labels") with
  | some (.scalar (.str label)) => [label].toFinset.filter (· ≠ "")
  | some (.list labels) => (labels.filterMap Value.str?).toFinset.filter (· ≠ "")
  | _ => ∅

/-- The test id of `_extract_check_test_ids_from_config`. -/
def checkTestIds (params : Items) : Finset String :=
  match params.lookup (.str "test_id") with
  | some (.scalar (.str id)) => if id ≠ "" ∧ id ≠ "N/A" then {id} else ∅
  | _ => ∅

/-- What a file declares for the names which it wires. -/
def declarations (extract : Items → Finset String) (file : ConfigFile) :
    Except PyError (List (Scalar × Finset String)) :=
  match file.data with
  | none => .ok []
  | some data => (iterChecksFromData data).map fun checks ↦
    (checks.map fun check ↦ (check.name, extract check.params)).filter fun item ↦ item.2 ≠ ∅

/-- The base name of a variant. -/
def baseName : Scalar → Option Scalar
  | .str name =>
    let base := (Text.split '-' name).headD ""
    if base ≠ name then some (.str base) else none
  | _ => none

/-- What a variant declares counts for its base name as well; a name which is no text cannot be split. -/
def spreadAttributes (gathered : OrderedMap Scalar (Finset String)) :
    Except PyError (OrderedMap Scalar (Finset String)) :=
  match gathered.keys.find? fun key ↦ (Value.scalar key).str?.isNone with
  | some key => .error (.attributeError s!"'{(Value.scalar key).typeName}' object has no attribute 'split'")
  | none => .ok (gathered.spread baseName)

/-- `_build_check_attribute_map`. -/
def buildCheckAttributeMap (extract : Items → Finset String) : Except PyError (OrderedMap Scalar (Finset String)) := do
  let declared ← workspace.configs.mapM (declarations extract)
  spreadAttributes (OrderedMap.empty.gather declared.flatten)

/-- `build_label_map`. -/
def buildLabelMap : Except PyError (OrderedMap Scalar (Finset String)) := buildCheckAttributeMap workspace checkLabels

/-- `build_test_id_map`. -/
def buildTestIdMap : Except PyError (OrderedMap Scalar (Finset String)) :=
  buildCheckAttributeMap workspace checkTestIds

/-! ## The entries -/

structure BuiltEntry where
  name : Scalar
  description : Value
  labels : List String
  testIds : List String
  source : String
  suite : String
  capability : Option String
  requires : List Value

def excludedNames (classes : List DiscoveredClass) : List String :=
  (classes.filter DiscoveredClass.catalogExclude).map DiscoveredClass.name

/-- The class whose metadata is kept for a name: the last one which is found. -/
def classMeta (classes : List DiscoveredClass) (name : String) : Option DiscoveredClass :=
  (classes.filter fun found ↦ !found.catalogExclude).reverse.find? fun found ↦ found.name = name

def classKeys (classes : List DiscoveredClass) : List String :=
  (classes.filter fun found ↦ !found.catalogExclude).map DiscoveredClass.name ++ excludedNames classes

/-- The description of a class, with the suffix of the variant. -/
def variantDescription (name base description : String) : String :=
  if base = name then description
  else
    let suffix := String.ofList ((name.toList.drop base.length).dropWhile (· = '-'))
    if description = "" then suffix else s!"{description} ({suffix})"

/-- The class of a name which is wired; there is none for a name which is no text, unless it cannot be looked up. -/
def wiredClass (classes : List DiscoveredClass) : Scalar → Except PyError (Option (String × String))
  | .str name => .ok ((resolveClassKey name (classKeys classes)).map fun base ↦ (name, base))
  | name =>
    if classKeys classes = [] then .ok none
    else .error (.attributeError s!"'{(Value.scalar name).typeName}' object has no attribute 'startswith'")

section Entry

variable (labels testIds : OrderedMap Scalar (Finset String)) (name : Scalar) (placement : Placement)

def entryOf (description : Value) (source : String) (classLabels : Finset String) : BuiltEntry where
  name := name
  description := description
  labels := sortedMembers (classLabels ∪ labels.membersAt name)
  testIds := sortedMembers (testIds.membersAt name)
  source := source
  suite := placement.suite
  capability := placement.capability
  requires := placement.requires

/-- The entry of a name which is wired, if it is published. -/
def catalogEntry (classes : List DiscoveredClass) : Except PyError (Option BuiltEntry) :=
  if placement.composite then
    .ok (some (entryOf labels testIds name placement placement.description "isvtest.core.composite" ∅))
  else do
    match ← wiredClass classes name with
    | none => return none
    | some (text, base) =>
      if base ∈ excludedNames classes then return none
      else
        match classMeta classes base with
        | none => .error (.keyError base)
        | some found =>
          return some (entryOf labels testIds name placement
            (.str (variantDescription text base found.description)) found.source (labels.membersAt (.str base)))

end Entry

/-- `build_catalog`. -/
def buildCatalog : Except PyError (List BuiltEntry) := do
  let suites ← buildSuiteMap workspace
  let labels ← buildLabelMap workspace
  let testIds ← buildTestIdMap workspace
  let entries ← suites.mapM fun item ↦ catalogEntry labels testIds item.1 item.2 workspace.classes
  return entries.reduceOption

/-! ## The document -/

/-- The word of a file: its capability, where that can be declared, or the name of a plain suite. -/
def wordOf (unicode : Unicode) (file : ConfigFile) : Option String → String ⊕ String
  | some capability =>
    if capability ∈ declarableCapabilities then .inl capability else .inr (canonicalSuiteName unicode file.stem)
  | none => .inr (canonicalSuiteName unicode file.stem)

def vocabularyWord (file : ConfigFile) : Except PyError (String ⊕ String) := do
  let data ← suiteData file
  let capability ← declaredCapability data
  return wordOf workspace.unicode file capability

/-- `suite_vocabularies`: the capabilities and the plain suites. -/
def suiteVocabularies : Except PyError (List String × List String) := do
  let words ← (suiteFiles workspace.configs).mapM (vocabularyWord workspace)
  return (sortedMembers (words.filterMap Sum.getLeft?).toFinset, sortedMembers (words.filterMap Sum.getRight?).toFinset)

/-- `_assert_disjoint_vocabulary`. -/
def assertDisjointVocabulary (capabilities suites : List String) : Except PyError Unit :=
  let collisions := sortedMembers (suites.toFinset ∩ (capabilities.toFinset ∪ declarableCapabilities.toFinset))
  if collisions = [] then .ok ()
  else .error (.valueError ("plain suite names collide with declarable capabilities: " ++ ", ".intercalate collisions ++
    "; rename the suite file(s) so the capability and suite namespaces stay disjoint"))

structure BuiltDocument where
  isvTestVersion : String
  isvTestBuildRef : String
  capabilities : List String
  suites : List String
  entries : List BuiltEntry

/-- `catalog_document`, without the digest. -/
def catalogDocument (entries : List BuiltEntry) (version reference : String) : Except PyError BuiltDocument := do
  let (capabilities, suites) ← suiteVocabularies workspace
  assertDisjointVocabulary capabilities suites
  return {
    isvTestVersion := version
    isvTestBuildRef := reference
    capabilities
    suites
    entries }

/-- The document of the catalog which is built. -/
def builtDocument (version reference : String) : Except PyError BuiltDocument := do
  let entries ← buildCatalog workspace
  catalogDocument workspace entries version reference

end Build

/-! ## The suites, file by file -/

section Suites

variable {workspace : Workspace}

/-- What one file adds to the suite map. -/
def filePlacements (workspace : Workspace) (file : ConfigFile) : Except PyError (List (Scalar × Placement)) := do
  let data ← suiteData file
  let capability ← declaredCapability data
  let checks ← iterChecksFromData data
  return checks.map (placedCheck (suiteOf workspace.unicode file capability) capability)

theorem foldlM_placeCheck {suite : String} {capability : Option String} {map result : List (Scalar × Placement)}
    {checks : List WiredCheck} (hmap : (map.map Prod.fst).Nodup) :
    checks.foldlM (placeCheck workspace suite capability) map = .ok result ↔
      result = map ++ checks.map (placedCheck suite capability) ∧ (result.map Prod.fst).Nodup :=
  foldlM_distinct (placedCheck suite capability) (fun check : WiredCheck ↦
    PyError.valueError s!"Suite wiring name {workspace.repr check.name} is not globally unique") hmap

theorem placeFile_iff {map result : List (Scalar × Placement)} {file : ConfigFile} (hmap : (map.map Prod.fst).Nodup) :
    placeFile workspace map file = .ok result ↔ ∃ placed, filePlacements workspace file = .ok placed ∧
      result = map ++ placed ∧ (result.map Prod.fst).Nodup := by
  simp only [placeFile, filePlacements, bind_eq_ok]
  constructor
  · rintro ⟨data, hdata, capability, hcapability, checks, hchecks, hfold⟩
    obtain ⟨rfl, hnodup⟩ := (foldlM_placeCheck hmap).mp hfold
    exact ⟨_, ⟨data, hdata, capability, hcapability, checks, hchecks, rfl⟩, rfl, hnodup⟩
  · rintro ⟨placed, ⟨data, hdata, capability, hcapability, checks, hchecks, hplaced⟩, rfl, hnodup⟩
    cases hplaced
    exact ⟨data, hdata, capability, hcapability, checks, hchecks, (foldlM_placeCheck hmap).mpr ⟨rfl, hnodup⟩⟩

theorem foldlM_placeFile {map result : List (Scalar × Placement)} {files : List ConfigFile}
    (hmap : (map.map Prod.fst).Nodup) :
    files.foldlM (placeFile workspace) map = .ok result ↔ ∃ parts, files.mapM (filePlacements workspace) = .ok parts ∧
      result = map ++ parts.flatten ∧ (result.map Prod.fst).Nodup := by
  induction files generalizing map with
  | nil =>
    constructor
    · intro h
      cases h
      exact ⟨[], rfl, by simp, hmap⟩
    · rintro ⟨parts, hparts, rfl, -⟩
      rw [List.mapM_nil] at hparts
      cases hparts
      rw [List.flatten_nil, List.append_nil]
      rfl
  | cons file rest ih =>
    simp only [List.foldlM_cons, List.mapM_cons, bind_eq_ok, placeFile_iff hmap]
    constructor
    · rintro ⟨next, ⟨placed, hplaced, rfl, hnodup⟩, hrest⟩
      obtain ⟨parts, hparts, rfl, hresult⟩ := (ih hnodup).mp hrest
      exact ⟨placed :: parts, ⟨placed, hplaced, parts, hparts, rfl⟩, by simp, hresult⟩
    · rintro ⟨parts, ⟨placed, hplaced, others, hothers, hcons⟩, rfl, hnodup⟩
      cases hcons
      have hfirst : ((map ++ placed).map Prod.fst).Nodup := by
        rw [List.flatten_cons, ← List.append_assoc, List.map_append] at hnodup
        exact hnodup.of_append_left
      refine ⟨map ++ placed, ⟨placed, hplaced, rfl, hfirst⟩, (ih hfirst).mpr ⟨others, hothers, by simp, hnodup⟩⟩

/-- The suites are placed exactly if no name is wired twice, over all the files. -/
theorem buildSuiteMap_iff {suites : List (Scalar × Placement)} :
    buildSuiteMap workspace = .ok suites ↔ ∃ parts,
      (suiteFiles workspace.configs).mapM (filePlacements workspace) = .ok parts ∧ suites = parts.flatten ∧
        (suites.map Prod.fst).Nodup := by
  rw [buildSuiteMap, foldlM_placeFile (by simp)]
  simp

end Suites

/-! ## What is declared for a name -/

/-- The checks which a file wires. -/
def ConfigFile.checks (file : ConfigFile) : List WiredCheck :=
  ((file.data.map iterChecksFromData).getD (.ok [])).toOption.getD []

/-- Whether the wiring of a file can be read. -/
def ConfigFile.Walked (file : ConfigFile) : Prop :=
  ∀ data, file.data = some data → ∃ checks, iterChecksFromData data = .ok checks

/-- Whether what is declared for a name counts for another one: for the name itself, and for its base name. -/
def CountsFor (name key : Scalar) : Prop := name = key ∨ baseName name = some key

section Attributes

variable {workspace : Workspace} {extract : Items → Finset String}

theorem declarations_iff {file : ConfigFile} {declared : List (Scalar × Finset String)} :
    declarations extract file = .ok declared ↔
      file.Walked ∧
        declared = (file.checks.map fun check ↦ (check.name, extract check.params)).filter fun item ↦ item.2 ≠ ∅ := by
  unfold declarations ConfigFile.checks ConfigFile.Walked
  cases file.data with
  | none => simp [Except.toOption, eq_comm]
  | some data =>
    cases hchecks : iterChecksFromData data with
    | error raised => simp [Except.map, hchecks]
    | ok checks => simp [Except.map, Except.toOption, hchecks, eq_comm]

theorem mem_declared {files : List ConfigFile} {declared : List (List (Scalar × Finset String))}
    (h : files.mapM (declarations extract) = .ok declared) {name : Scalar} {members : Finset String} :
    (name, members) ∈ declared.flatten ↔
      ∃ file ∈ files, ∃ check ∈ file.checks, check.name = name ∧ extract check.params = members ∧ members ≠ ∅ := by
  rw [List.mem_flatten]
  constructor
  · rintro ⟨part, hpart, hmem⟩
    obtain ⟨file, hfile, hdeclared⟩ := (mem_of_mapM_ok h part).mp hpart
    obtain ⟨-, rfl⟩ := declarations_iff.mp hdeclared
    obtain ⟨hmap, hne⟩ := List.mem_filter.mp hmem
    obtain ⟨check, hcheck, heq⟩ := List.mem_map.mp hmap
    cases heq
    exact ⟨file, hfile, check, hcheck, rfl, rfl, of_decide_eq_true hne⟩
  · rintro ⟨file, hfile, check, hcheck, rfl, rfl, hne⟩
    obtain ⟨part, hpart, hdeclared⟩ := exists_of_mapM_ok h hfile
    obtain ⟨-, rfl⟩ := declarations_iff.mp hdeclared
    exact ⟨_, hpart, List.mem_filter.mpr ⟨List.mem_map.mpr ⟨check, hcheck, rfl⟩, decide_eq_true hne⟩⟩

theorem spreadAttributes_iff {gathered map : OrderedMap Scalar (Finset String)} :
    spreadAttributes gathered = .ok map ↔
      (∀ key ∈ gathered.keys, (Value.scalar key).str?.isSome) ∧ map = gathered.spread baseName := by
  unfold spreadAttributes
  cases hfound : gathered.keys.find? fun key ↦ (Value.scalar key).str?.isNone with
  | some key =>
    obtain ⟨hmem, hnone⟩ := And.intro (List.mem_of_find?_eq_some hfound) (List.find?_some hfound)
    refine iff_of_false (fun h ↦ ?_) ?_
    · cases h
    · rintro ⟨htexts, -⟩
      rw [Option.isNone_iff_eq_none] at hnone
      simpa [hnone] using htexts key hmem
  | none =>
    have htexts : ∀ key ∈ gathered.keys, (Value.scalar key).str?.isSome := by
      intro key hmem
      simpa [Option.isSome_iff_ne_none] using List.find?_eq_none.mp hfound key hmem
    rw [Except.ok.injEq, eq_comm]
    exact (and_iff_right htexts).symm

/-- What is stored for a name is what is declared in any file and counts for it. -/
theorem buildCheckAttributeMap_spec {map : OrderedMap Scalar (Finset String)}
    (h : buildCheckAttributeMap workspace extract = .ok map) {key : Scalar} {a : String} :
    a ∈ map.membersAt key ↔ ∃ file ∈ workspace.configs, ∃ check ∈ file.checks, a ∈ extract check.params ∧
      CountsFor check.name key := by
  obtain ⟨declared, hdeclared, hmap⟩ := bind_eq_ok.mp h
  obtain ⟨-, rfl⟩ := spreadAttributes_iff.mp hmap
  rw [OrderedMap.mem_membersAt_spread_gather]
  constructor
  · rintro ⟨⟨name, members⟩, hmem, hcounts, ha⟩
    obtain ⟨file, hfile, check, hcheck, rfl, rfl, -⟩ := (mem_declared hdeclared).mp hmem
    exact ⟨file, hfile, check, hcheck, ha, hcounts⟩
  · rintro ⟨file, hfile, check, hcheck, ha, hcounts⟩
    exact ⟨(check.name, extract check.params), (mem_declared hdeclared).mpr ⟨file, hfile, check, hcheck, rfl, rfl,
      Finset.ne_empty_of_mem ha⟩, hcounts, ha⟩

/-- A map is built exactly if all files are walked and only names which are texts declare something. -/
theorem buildCheckAttributeMap_isOk : (∃ map, buildCheckAttributeMap workspace extract = .ok map) ↔
    (∀ file ∈ workspace.configs, file.Walked) ∧
      ∀ file ∈ workspace.configs, ∀ check ∈ file.checks, extract check.params ≠ ∅ →
        ((Value.scalar check.name).str?).isSome := by
  have hkeys : ∀ declared, workspace.configs.mapM (declarations extract) = .ok declared →
      ∀ key, key ∈ (OrderedMap.empty.gather declared.flatten).keys ↔
        ∃ file ∈ workspace.configs, ∃ check ∈ file.checks, check.name = key ∧ extract check.params ≠ ∅ := by
    intro declared hdeclared key
    rw [OrderedMap.mem_keys_gather, OrderedMap.keys_empty, List.mem_map]
    constructor
    · rintro (hnil | ⟨⟨name, members⟩, hmem, rfl⟩)
      · cases hnil
      · obtain ⟨file, hfile, check, hcheck, rfl, rfl, hne⟩ := (mem_declared hdeclared).mp hmem
        exact ⟨file, hfile, check, hcheck, rfl, hne⟩
    · rintro ⟨file, hfile, check, hcheck, rfl, hne⟩
      exact .inr ⟨_, (mem_declared hdeclared).mpr ⟨file, hfile, check, hcheck, rfl, rfl, hne⟩, rfl⟩
  constructor
  · rintro ⟨map, h⟩
    obtain ⟨declared, hdeclared, hmap⟩ := bind_eq_ok.mp h
    refine ⟨fun file hfile ↦ ?_, fun file hfile check hcheck hne ↦ ?_⟩
    · obtain ⟨part, -, hpart⟩ := exists_of_mapM_ok hdeclared hfile
      exact (declarations_iff.mp hpart).1
    · exact (spreadAttributes_iff.mp hmap).1 check.name
        ((hkeys declared hdeclared check.name).mpr ⟨file, hfile, check, hcheck, rfl, hne⟩)
  · rintro ⟨hwalked, htexts⟩
    have hfiles : ∀ file ∈ workspace.configs, ∃ declared, declarations extract file = .ok declared :=
      fun file hfile ↦ ⟨_, declarations_iff.mpr ⟨hwalked file hfile, rfl⟩⟩
    obtain ⟨declared, hdeclared⟩ := exists_mapM_ok hfiles
    refine ⟨_, bind_eq_ok.mpr ⟨declared, hdeclared, spreadAttributes_iff.mpr ⟨fun key hkey ↦ ?_, rfl⟩⟩⟩
    obtain ⟨file, hfile, check, hcheck, rfl, hne⟩ := (hkeys declared hdeclared key).mp hkey
    exact htexts file hfile check hcheck hne

end Attributes

/-- An entry as the digest reads it, if its name, its description and its requirements are texts. -/
def BuiltEntry.typed (entry : BuiltEntry) : Option CatalogEntry := do
  let name ← (Value.scalar entry.name).str?
  let description ← entry.description.str?
  let requires ← entry.requires.mapM Value.str?
  return {
    name := .value name
    description := .value description
    labels := .value entry.labels
    capability := (entry.capability.map Field.value).getD .null
    suite := .value entry.suite
    requires := .value requires
    testIds := .value entry.testIds
    others := [("source", .text entry.source)] }

def BuiltDocument.typed (document : BuiltDocument) : Option CatalogDocument := do
  let entries ← document.entries.mapM BuiltEntry.typed
  return {
    schemaVersion := .value catalogSchemaVersion
    capabilities := .value document.capabilities
    suites := .value document.suites
    entries := some entries
    others := [("isvTestVersion", .text document.isvTestVersion),
      ("isvTestBuildRef", .text document.isvTestBuildRef)] }

end IsvValidation.Catalog
