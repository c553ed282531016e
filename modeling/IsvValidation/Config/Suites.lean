import IsvValidation.Catalog.Build
import IsvValidation.Resolution.Resolve

/-!
# Suites and labels

A run is selected by the name of a suite, by files, or by labels. A file belongs to the suite of the capability which
it declares, else to the one suite which it imports, else to the suite of its own name; so the name by which it was
selected can be recovered from the file. Labels select the configurations of a provider which have a check to run
under them, and no other.
-/

namespace IsvValidation.Config

open Host Library Resolution
open Catalog (canonicalSuiteName)

/-- The configurations below `isvctl/configs`, each directory as it is globbed; a provider which has no directory of
configurations has none. -/
structure Configs where
  fs : FileSystem
  host : Runtime
  unicode : Unicode
  suites : List String
  provided : String → Option (List String)
  distinct : ∀ provider paths, provided provider = some paths → paths.Nodup
  distinctSuites : suites.Nodup

/-- Why a suite, or a capability, is not selected. -/
inductive SuiteResolutionError where
  | listed (value : String)
  | undeclarable (value : String) (allowed : List String)
  | unreadable (path : String) (error : PyError)
  | severalImports (path : String) (imports : List String)
  | noConfigs (provider : String)
  | noSuite (provider : Option String) (requested : String) (available : List String)
  | severalConfigs (provider : Option String) (requested : String) (paths : List String)

/-- A selection ends with its own error, or with an exception which it does not expect. -/
inductive SelectionError where
  | resolution (error : SuiteResolutionError)
  | raised (error : PyError)

/-- A configuration selected for one logical suite. -/
@[ext]
structure ResolvedSuite where
  configPath : String
  name : String
  platform : Option String
  deriving DecidableEq

/-- `Path(path).stem`. -/
def pathStem (path : String) : String :=
  let name := Text.pathName path
  match name.toList.reverse.span (· != '.') with
  | (suffix, _ :: front) => if suffix = [] ∨ front = [] then name else .ofList front.reverse
  | (_, []) => name

/-- What the readers of a vocabulary and of imports take for a file which cannot be read. -/
def unreadable : PyError → Bool
  | .osError _ => true
  | .other name _ => name == "YAMLError"
  | _ => false

section Suites

variable (configs : Configs)

def normalizeName (name : String) : String := canonicalSuiteName configs.unicode name

/-- The capability of `tests`, if it is a text. -/
def testsCapability (tests : Value) : Option String :=
  match tests.get? "capability" with
  | some (.scalar (.str capability)) => some capability
  | _ => none

/-- The capability which the document of a suite declares. -/
def declaredPlatform (data : Value) : Except PyError (Option String) :=
  match data.orEmpty with
  | .dict items => do
    match ((Value.dict items).get? "tests").getD .null |>.orEmpty with
    | .dict tests => return (testsCapability (.dict tests)).filter (· ≠ "")
    | other => .error (.attributeError s!"'{other.typeName}' object has no attribute 'get'")
  | _ => .ok none

/-- The platform which one file of `suites` adds to the vocabulary. -/
def platformOfFile (path : String) : Except PyError (Option String) :=
  match configs.fs.read path with
  | .error error => if unreadable error then .ok none else .error error
  | .ok data => (declaredPlatform data).map fun platform ↦ platform.map (normalizeName configs)

/-- `platform_vocabulary`. -/
def platformVocabulary : Except PyError (List String) :=
  (configs.suites.mapM (platformOfFile configs)).map fun platforms ↦ platforms.reduceOption

/-- `suite_vocabulary`. -/
def suiteVocabulary : Except PyError (List String) :=
  (platformVocabulary configs).map fun declarable ↦
    (configs.suites.map fun path ↦ normalizeName configs (pathStem path)).filter (· ∉ declarable)

/-- `parse_capability`. -/
def parseCapability : Option String → Except SelectionError (Option String)
  | none => .ok none
  | some value =>
    if Text.contains value "," then .error (.resolution (.listed value))
    else
      match platformVocabulary configs with
      | .error error => .error (.raised error)
      | .ok allowed =>
        if normalizeName configs value ∈ allowed then .ok (some (normalizeName configs value))
        else .error (.resolution (.undeclarable value (sortedNames allowed.dedup)))

/-- The import paths which a document declares. -/
def importPaths (data : Value) : List String :=
  match data.orEmpty.get? "import" with
  | some (.scalar (.str path)) => [path]
  | some (.list items) => items.filterMap Value.str?
  | _ => []

/-- The suite files which a configuration imports. -/
def suiteImports (data : Value) : List String := (importPaths data).filter fun value ↦ "suites" ∈ Text.pathParts value

/-- The suite files among `_raw_imports`. -/
def rawSuiteImports (path : String) : Except SelectionError (List String) :=
  match configs.fs.read path with
  | .error error => .error (if unreadable error then .resolution (.unreadable path error) else .raised error)
  | .ok data => .ok (suiteImports data)

/-- `merge_yaml_files([path])`. -/
def mergeConfig (path : String) : Except PyError Items :=
  (mergeYamlFiles configs.fs (fun _ ↦ .ok ()) [] [path]).mapError LoadError.toPyError

/-- The platform of a merged configuration. -/
def platformOf (merged : Items) (declarable : List String) : Option String :=
  let tests := ((Value.dict merged).get? "tests").getD .null |>.orEmpty
  ((testsCapability tests).map (normalizeName configs)).filter (· ∈ declarable)

/-- `_suite_name`: the name and the platform of a configuration. -/
def suiteName (declarable : List String) (path : String) : Except SelectionError (String × Option String) := do
  let merged ← (mergeConfig configs path).mapError .raised
  match platformOf configs merged declarable with
  | some platform => return (platform, some platform)
  | none =>
    let imports ← rawSuiteImports configs path
    match imports.map pathStem with
    | [] => return (normalizeName configs (pathStem path), none)
    | [suite] => return (normalizeName configs suite, none)
    | several => .error (.resolution (.severalImports path several))

/-- The files which belong to a suite; one which names several is passed over. -/
def classify (declarable : List String) : List String → Except PyError (List ResolvedSuite)
  | [] => .ok []
  | path :: rest =>
    match suiteName configs declarable path with
    | .error (.raised error) => .error error
    | .error (.resolution _) => classify declarable rest
    | .ok (name, platform) => do
      let others ← classify declarable rest
      return ⟨path, name, platform⟩ :: others

/-- The files among which a suite is looked for. -/
def configPaths : Option String → Option (List String)
  | none => some configs.suites
  | some provider => configs.provided provider

/-- `resolve_suite`. -/
def resolveSuite (provider : Option String) (suite : String) : Except SelectionError ResolvedSuite := do
  match configPaths configs provider with
  | none => .error (.resolution (.noConfigs (provider.getD "")))
  | some paths =>
    let requested := normalizeName configs suite
    let declarable ← (platformVocabulary configs).mapError .raised
    let classified ← (classify configs declarable (sortedNames paths)).mapError .raised
    match classified.filter fun found ↦ found.name = requested with
    | [] =>
      .error (.resolution (.noSuite provider requested (sortedNames (classified.map ResolvedSuite.name).dedup)))
    | [found] => return found
    | several => .error (.resolution (.severalConfigs provider requested (several.map ResolvedSuite.configPath)))

/-- The first of some files which names a suite of the vocabulary. -/
def firstKnown (declarable known : List String) : List String → Except PyError (Option String)
  | [] => .ok none
  | path :: rest =>
    match suiteName configs declarable path with
    | .error (.raised error) => .error error
    | .error (.resolution _) => firstKnown declarable known rest
    | .ok (name, _) => if name ∈ known then .ok (some name) else firstKnown declarable known rest

/-- `resolve_suite_name`. -/
def resolveSuiteName : List String → Except PyError (Option String)
  | [] => .ok none
  | path :: rest => do
    let declarable ← platformVocabulary configs
    let suites ← suiteVocabulary configs
    let found ← firstKnown configs declarable (declarable ++ suites) (path :: rest)
    return some (found.getD (normalizeName configs (pathStem path)))

end Suites

/-! ## The file of a suite -/

section Resolved

variable {configs : Configs} {declarable : List String}

/-- The files which are classified are those which have a name; they keep their order. -/
structure Classifies (configs : Configs) (declarable paths : List String) (found : List ResolvedSuite) : Prop where
  mem : ∀ entry, entry ∈ found ↔ entry.configPath ∈ paths ∧
    suiteName configs declarable entry.configPath = .ok (entry.name, entry.platform)
  sublist : (found.map ResolvedSuite.configPath).Sublist paths
  expected : ∀ path ∈ paths, ∀ error, suiteName configs declarable path ≠ .error (.raised error)

theorem Classifies.nil : Classifies configs declarable [] [] where
  mem := by simp
  sublist := .slnil
  expected := by simp

theorem Classifies.skip {path : String} {rest : List String} {found : List ResolvedSuite} {error : SuiteResolutionError}
    (hname : suiteName configs declarable path = .error (.resolution error))
    (h : Classifies configs declarable rest found) : Classifies configs declarable (path :: rest) found where
  mem := by
    intro entry
    rw [h.mem, List.mem_cons]
    refine ⟨fun hentry ↦ ⟨.inr hentry.1, hentry.2⟩, ?_⟩
    rintro ⟨hpath | hmem, hentry⟩
    · rw [hpath, hname] at hentry
      cases hentry
    · exact ⟨hmem, hentry⟩
  sublist := h.sublist.cons path
  expected := by
    rw [List.forall_mem_cons, hname]
    exact ⟨nofun, h.expected⟩

theorem Classifies.cons {path name : String} {platform : Option String} {rest : List String}
    {found : List ResolvedSuite} (hname : suiteName configs declarable path = .ok (name, platform))
    (h : Classifies configs declarable rest found) :
    Classifies configs declarable (path :: rest) (⟨path, name, platform⟩ :: found) where
  mem := by
    intro entry
    rw [List.mem_cons, h.mem, List.mem_cons]
    constructor
    · rintro (rfl | ⟨hmem, hentry⟩)
      · exact ⟨.inl rfl, hname⟩
      · exact ⟨.inr hmem, hentry⟩
    · rintro ⟨hpath | hmem, hentry⟩
      · rw [hpath, hname] at hentry
        cases hentry
        exact .inl (by rw [← hpath])
      · exact .inr ⟨hmem, hentry⟩
  sublist := h.sublist.cons_cons path
  expected := by
    rw [List.forall_mem_cons, hname]
    exact ⟨nofun, h.expected⟩

theorem classifies_of_classify {paths : List String} {found : List ResolvedSuite}
    (h : classify configs declarable paths = .ok found) : Classifies configs declarable paths found := by
  induction paths generalizing found with
  | nil =>
    cases h
    exact .nil
  | cons path rest ih =>
    rw [classify] at h
    split at h
    · cases h
    · next error hname => exact .skip hname (ih h)
    · next name platform hname =>
      obtain ⟨others, hothers, heq⟩ := bind_eq_ok.mp h
      cases heq
      exact .cons hname (ih hothers)

/-- The files can be classified unless one of them raises what is not expected. -/
theorem exists_classify {paths : List String}
    (h : ∀ path ∈ paths, ∀ error, suiteName configs declarable path ≠ .error (.raised error)) :
    ∃ found, classify configs declarable paths = .ok found := by
  induction paths with
  | nil => exact ⟨[], rfl⟩
  | cons path rest ih =>
    obtain ⟨hpath, hrest⟩ := List.forall_mem_cons.mp h
    obtain ⟨found, hfound⟩ := ih hrest
    rw [classify, hfound]
    split
    · next error hname => exact absurd hname (hpath error)
    · exact ⟨found, rfl⟩
    · exact ⟨_, rfl⟩

theorem Classifies.nodup {paths : List String} {found : List ResolvedSuite} (hnodup : paths.Nodup)
    (h : Classifies configs declarable paths found) : found.Nodup :=
  .of_map ResolvedSuite.configPath (h.sublist.nodup hnodup)

/-- A file is the one of a suite: each file can be read as far as is needed, and it alone has the name. -/
structure Selects (configs : Configs) (declarable paths : List String) (name : String) (selected : ResolvedSuite) :
    Prop where
  expected : ∀ path ∈ paths, ∀ error, suiteName configs declarable path ≠ .error (.raised error)
  mem : selected.configPath ∈ paths
  named : suiteName configs declarable selected.configPath = .ok (selected.name, selected.platform)
  asked : selected.name = name
  unique : ∀ path ∈ paths, ∀ platform, suiteName configs declarable path = .ok (name, platform) →
    path = selected.configPath

theorem filter_eq_singleton_iff {paths : List String} (hnodup : paths.Nodup) {found : List ResolvedSuite}
    (h : Classifies configs declarable paths found) {name : String} {selected : ResolvedSuite} :
    (found.filter fun entry ↦ entry.name = name) = [selected] ↔ Selects configs declarable paths name selected := by
  constructor
  · intro hfilter
    have hmem : ∀ entry, entry = selected ↔ (entry.configPath ∈ paths ∧
        suiteName configs declarable entry.configPath = .ok (entry.name, entry.platform)) ∧ entry.name = name := by
      intro entry
      rw [← h.mem, ← List.mem_singleton, ← hfilter, List.mem_filter, decide_eq_true_eq]
    obtain ⟨⟨hpath, hnamed⟩, hname⟩ := (hmem selected).mp rfl
    refine ⟨h.expected, hpath, hnamed, hname, fun path hother platform hsame ↦ ?_⟩
    exact congrArg ResolvedSuite.configPath ((hmem ⟨path, name, platform⟩).mpr ⟨⟨hother, hsame⟩, rfl⟩)
  · intro hselects
    have hmem : ∀ entry, entry ∈ (found.filter fun entry ↦ entry.name = name) ↔ entry ∈ [selected] := by
      intro entry
      rw [List.mem_filter, h.mem, decide_eq_true_eq, List.mem_singleton]
      constructor
      · rintro ⟨⟨hpath, hnamed⟩, rfl⟩
        have hsame := hselects.unique _ hpath _ hnamed
        have hnamed' := hselects.named
        rw [← hsame, hnamed, Except.ok.injEq, Prod.mk.injEq] at hnamed'
        exact ResolvedSuite.ext hsame hnamed'.1 hnamed'.2
      · rintro rfl
        exact ⟨⟨hselects.mem, hselects.named⟩, hselects.asked⟩
    exact List.perm_singleton.mp ((List.perm_ext_iff_of_nodup ((h.nodup hnodup).filter _)
      (List.nodup_singleton selected)).mpr hmem)

theorem mem_sortedPaths {paths : List String} {path : String} : path ∈ sortedNames paths ↔ path ∈ paths := by
  simp [sortedNames]

theorem nodup_sortedPaths (paths : List String) : (sortedNames paths).Nodup :=
  (List.perm_insertionSort ..).nodup_iff.mpr paths.nodup_dedup

theorem selects_sorted {paths : List String} {name : String} {selected : ResolvedSuite} :
    Selects configs declarable (sortedNames paths) name selected ↔ Selects configs declarable paths name selected := by
  have hmem : ∀ path, path ∈ sortedNames paths ↔ path ∈ paths := fun path ↦ mem_sortedPaths
  constructor
  · intro h
    exact ⟨fun path hpath ↦ h.expected path ((hmem path).mpr hpath), (hmem _).mp h.mem, h.named, h.asked,
      fun path hpath ↦ h.unique path ((hmem path).mpr hpath)⟩
  · intro h
    exact ⟨fun path hpath ↦ h.expected path ((hmem path).mp hpath), (hmem _).mpr h.mem, h.named, h.asked,
      fun path hpath ↦ h.unique path ((hmem path).mp hpath)⟩

theorem mapError_eq_ok {ε η α : Type} {result : Except ε α} {f : ε → η} {value : α} :
    result.mapError f = .ok value ↔ result = .ok value := by
  cases result <;> simp [Except.mapError]

/-- A suite is resolved to the one file which belongs to it. -/
theorem resolveSuite_ok_iff {provider : Option String} {suite : String} {selected : ResolvedSuite} :
    resolveSuite configs provider suite = .ok selected ↔ ∃ paths declarable,
      configPaths configs provider = some paths ∧ platformVocabulary configs = .ok declarable ∧
      Selects configs declarable paths (normalizeName configs suite) selected := by
  unfold resolveSuite
  constructor
  · intro h
    split at h
    · cases h
    next paths hpaths =>
    obtain ⟨declarable, hdeclarable, h⟩ := bind_eq_ok.mp h
    obtain ⟨classified, hclassified, h⟩ := bind_eq_ok.mp h
    refine ⟨paths, declarable, hpaths, mapError_eq_ok.mp hdeclarable, selects_sorted.mp ?_⟩
    refine (filter_eq_singleton_iff (nodup_sortedPaths paths)
      (classifies_of_classify (mapError_eq_ok.mp hclassified))).mp ?_
    split at h
    · cases h
    · next found hfound =>
      cases h
      exact hfound
    · cases h
  · rintro ⟨paths, declarable, hpaths, hdeclarable, hselects⟩
    have hsorted := selects_sorted.mpr hselects
    obtain ⟨classified, hclassified⟩ := exists_classify hsorted.expected
    have hfilter := (filter_eq_singleton_iff (nodup_sortedPaths paths) (classifies_of_classify hclassified)).mpr hsorted
    rw [hpaths]
    refine bind_eq_ok.mpr ⟨declarable, mapError_eq_ok.mpr hdeclarable, bind_eq_ok.mpr ⟨classified,
      mapError_eq_ok.mpr hclassified, ?_⟩⟩
    rw [hfilter]
    rfl

/-! ## The suite of a file -/

/-- The name of a file is that of the capability which it declares, of the suite which it imports, or its own. -/
theorem suiteName_ok {path name : String} {platform : Option String}
    (h : suiteName configs declarable path = .ok (name, platform)) :
    (platform = some name ∧ name ∈ declarable) ∨
      (platform = none ∧ ∃ data, configs.fs.read path = .ok data ∧
        ((suiteImports data = [] ∧ name = normalizeName configs (pathStem path)) ∨
          ∃ value, suiteImports data = [value] ∧ name = normalizeName configs (pathStem value))) := by
  unfold suiteName at h
  obtain ⟨merged, -, h⟩ := bind_eq_ok.mp h
  split at h
  · next found hfound =>
    cases h
    obtain ⟨-, hmem⟩ := Option.filter_eq_some_iff.mp hfound
    exact .inl ⟨rfl, of_decide_eq_true hmem⟩
  · obtain ⟨imports, himports, h⟩ := bind_eq_ok.mp h
    unfold rawSuiteImports at himports
    split at himports
    · cases himports
    next data hread =>
    cases himports
    split at h
    · next hnone =>
      cases h
      exact .inr ⟨rfl, data, hread, .inl ⟨List.map_eq_nil_iff.mp hnone, rfl⟩⟩
    · next suite hone =>
      cases h
      obtain ⟨value, hvalue, rfl⟩ := List.map_eq_singleton_iff.mp hone
      exact .inr ⟨rfl, data, hread, .inr ⟨value, hvalue, rfl⟩⟩
    · cases h

theorem firstKnown_single {known : List String} {path name : String} {platform : Option String}
    (h : suiteName configs declarable path = .ok (name, platform)) :
    firstKnown configs declarable known [path] = .ok (if name ∈ known then some name else none) := by
  rw [firstKnown, h]
  show (if name ∈ known then _ else Except.ok none) = _
  split_ifs <;> rfl

/-- The name by which a file was selected is recovered from it, where the suites which it imports are of this tree. -/
theorem resolveSuiteName_selected {provider : Option String} {suite : String} {selected : ResolvedSuite}
    (h : resolveSuite configs provider suite = .ok selected)
    (htree : ∀ data, configs.fs.read selected.configPath = .ok data → ∀ value ∈ suiteImports data,
      ∃ file ∈ configs.suites, pathStem file = pathStem value) :
    resolveSuiteName configs [selected.configPath] = .ok (some selected.name) := by
  obtain ⟨paths, declarable, -, hdeclarable, hselects⟩ := resolveSuite_ok_iff.mp h
  have hsuites : suiteVocabulary configs = .ok ((configs.suites.map fun path ↦
      normalizeName configs (pathStem path)).filter (· ∉ declarable)) := by
    rw [suiteVocabulary, hdeclarable]
    rfl
  generalize hknown : declarable ++ (configs.suites.map fun path ↦
    normalizeName configs (pathStem path)).filter (· ∉ declarable) = known
  have hresult : resolveSuiteName configs [selected.configPath] =
      .ok (some ((if selected.name ∈ known then some selected.name else none).getD
        (normalizeName configs (pathStem selected.configPath)))) := by
    rw [resolveSuiteName, hdeclarable, hsuites]
    show (firstKnown configs declarable (declarable ++ _) [selected.configPath] >>= _) = _
    rw [hknown, firstKnown_single hselects.named]
    rfl
  rw [hresult]
  split_ifs with hmem
  · rfl
  · obtain ⟨-, hplatform⟩ | ⟨-, data, hread, ⟨-, hown⟩ | ⟨value, hvalue, hname⟩⟩ := suiteName_ok hselects.named
    · rw [← hknown] at hmem
      exact absurd (List.mem_append_left _ hplatform) hmem
    · rw [← hown]
      rfl
    · have himport : value ∈ suiteImports data := by simp [hvalue]
      obtain ⟨file, hfile, hstem⟩ := htree data hread value himport
      have hsuite : selected.name ∈ configs.suites.map fun path ↦ normalizeName configs (pathStem path) :=
        List.mem_map.mpr ⟨file, hfile, by rw [hstem, hname]⟩
      rw [← hknown, List.mem_append, List.mem_filter, decide_eq_true_eq] at hmem
      exact absurd (by tauto) hmem

end Resolved

end IsvValidation.Config
