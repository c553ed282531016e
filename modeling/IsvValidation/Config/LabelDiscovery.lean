import IsvValidation.Config.Suites
import IsvValidation.Host.Matching

/-!
# Discovery by labels

With labels and no file, the configurations of a provider are discovered which have a check with all the labels. What
is discovered is what a run with the labels would not leave out: a check which is listed is resolved as if no label
had been asked for, and one which is not listed does not run.
-/

namespace IsvValidation.Config

open Host Library Resolution

/-- A check that has the requested labels. -/
structure MatchedCheck where
  category : String
  name : String
  labels : List String
  deriving DecidableEq

/-- A configuration which is selected by labels. -/
structure ProviderConfigMatch where
  configPath : String
  matchedChecks : List MatchedCheck

def matchedCheck (entry : ValidationEntry) : MatchedCheck := ⟨entry.category, entry.name, entry.labels⟩

/-- An entry has all the labels, of which empty ones do not count. -/
def hasLabels (labels : List String) (entry : ValidationEntry) : Bool :=
  (labels.filter (· ≠ "")).all fun label ↦ entry.labels.contains label

section Discovery

variable (configs : Configs)

/-- The entries of a merged configuration. -/
def validationsOf (merged : Items) : Except PyError (List ValidationEntry) :=
  match ((Value.dict merged).get? "tests").getD .null |>.orEmpty with
  | .dict tests =>
    match ((Value.dict tests).get? "validations").getD .null |>.orEmpty with
    | .dict validations => .ok (parseValidations configs.host validations)
    | other => .error (.attributeError s!"'{other.typeName}' object has no attribute 'items'")
  | other => .error (.attributeError s!"'{other.typeName}' object has no attribute 'get'")

/-- `_iter_config_validations`. -/
def iterConfigValidations (path : String) : Except PyError (List ValidationEntry) := do
  validationsOf configs (← mergeConfig configs path)

/-- One pass of the loop of the discovery. -/
def matchConfig (labels : List String) (path : String) : Except PyError (Option ProviderConfigMatch) := do
  let entries ← iterConfigValidations configs path
  match (entries.filter (hasLabels labels)).map matchedCheck with
  | [] => return none
  | checks => return some ⟨path, checks⟩

/-- `discover_provider_label_configs`. -/
def discoverProviderLabelConfigs (provider : String) (labels : List String) :
    Except PyError (List ProviderConfigMatch) := do
  let found ← (sortedNames ((configs.provided provider).getD [])).mapM (matchConfig configs labels)
  return found.reduceOption

/-- `list_providers`: of the given directories, those which have a configuration. -/
def listProviders (directories : List String) : List String :=
  sortedNames (directories.filter fun name ↦ (configs.provided name).getD [] ≠ [])

end Discovery

/-! ## What is listed -/

variable {configs : Configs} {labels : List String}

/-- A check of a file is among those which were found. -/
def Lists (found : List ProviderConfigMatch) (path : String) (entry : ValidationEntry) : Prop :=
  ∃ listed ∈ found, listed.configPath = path ∧ matchedCheck entry ∈ listed.matchedChecks

theorem hasLabels_congr {entry other : ValidationEntry} (h : matchedCheck entry = matchedCheck other) :
    hasLabels labels entry = hasLabels labels other := by
  have hlabels : entry.labels = other.labels := congrArg MatchedCheck.labels h
  rw [hasLabels, hasLabels, hlabels]

theorem parsed_of_iterConfigValidations {path : String} {entries : List ValidationEntry}
    (h : iterConfigValidations configs path = .ok entries) : ∃ raw, entries = parseValidations configs.host raw := by
  obtain ⟨merged, -, h⟩ := bind_eq_ok.mp h
  unfold validationsOf at h
  split at h
  · split at h
    · cases h
      exact ⟨_, rfl⟩
    · cases h
  · cases h

theorem configPath_of_matchConfig {path : String} {found : Option ProviderConfigMatch}
    (h : matchConfig configs labels path = .ok found) (listed : ProviderConfigMatch) (hlisted : found = some listed) :
    listed.configPath = path := by
  obtain ⟨entries, -, h⟩ := bind_eq_ok.mp h
  subst hlisted
  split at h
  · cases h
  · cases h
    rfl

theorem matchConfig_ok {path : String} {found : Option ProviderConfigMatch}
    (h : matchConfig configs labels path = .ok found) :
    ∃ entries, iterConfigValidations configs path = .ok entries ∧
      ∀ entry ∈ entries, (∃ listed, found = some listed ∧ matchedCheck entry ∈ listed.matchedChecks) ↔
        hasLabels labels entry = true := by
  obtain ⟨entries, hentries, h⟩ := bind_eq_ok.mp h
  refine ⟨entries, hentries, ?_⟩
  have hmem : ∀ entry ∈ entries, matchedCheck entry ∈ (entries.filter (hasLabels labels)).map matchedCheck ↔
      hasLabels labels entry = true := by
    intro entry hentry
    rw [List.mem_map]
    constructor
    · rintro ⟨other, hother, hsame⟩
      rw [← hasLabels_congr hsame]
      exact (List.mem_filter.mp hother).2
    · exact fun hlabels ↦ ⟨entry, List.mem_filter.mpr ⟨hentry, hlabels⟩, rfl⟩
  split at h
  · next hnone =>
    cases h
    rw [hnone] at hmem
    exact fun entry hentry ↦ by rw [← hmem entry hentry]; simp
  · cases h
    intro entry hentry
    rw [← hmem entry hentry]
    simp

/-- The discovery lists exactly the checks which have the labels. -/
theorem lists_iff {provider : String} {found : List ProviderConfigMatch}
    (h : discoverProviderLabelConfigs configs provider labels = .ok found) {path : String}
    (hpath : path ∈ (configs.provided provider).getD []) :
    ∃ entries, iterConfigValidations configs path = .ok entries ∧
      ∀ entry ∈ entries, Lists found path entry ↔ hasLabels labels entry = true := by
  obtain ⟨options, hoptions, heq⟩ := bind_eq_ok.mp h
  cases heq
  obtain ⟨option, hoption, hmatch⟩ := exists_of_mapM_ok hoptions (mem_sortedPaths.mpr hpath)
  obtain ⟨entries, hentries, hlisted⟩ := matchConfig_ok hmatch
  refine ⟨entries, hentries, fun entry hentry ↦ ?_⟩
  rw [← hlisted entry hentry]
  constructor
  · rintro ⟨listed, hmem, hsame, hcheck⟩
    obtain ⟨other, -, hother⟩ := (mem_of_mapM_ok hoptions _).mp (List.reduceOption_mem_iff.mp hmem)
    obtain rfl : path = other := hsame.symm.trans (configPath_of_matchConfig hother listed rfl)
    rw [hmatch, Except.ok.injEq] at hother
    exact ⟨listed, hother, hcheck⟩
  · rintro ⟨listed, rfl, hcheck⟩
    exact ⟨listed, List.reduceOption_mem_iff.mpr hoption, configPath_of_matchConfig hmatch listed rfl, hcheck⟩

/-! ## What a run makes of it -/

variable {host : Runtime} {inputs : ResolveInputs} {entry : ValidationEntry}

/-- The selection of a run by the labels, as a set. -/
def Asks (inputs : ResolveInputs) (labels : List String) : Prop := ∀ label, label ∈ inputs.includeLabels ↔ label ∈ labels

/-- A check which has all the labels of a run is resolved as if there were none. -/
theorem resolveEntry_of_labels (h : ∀ label ∈ inputs.includeLabels, label ∈ entry.labels) :
    resolveEntry host inputs entry = resolveEntry host { inputs with includeLabels := [] } entry := by
  have hmissing : (inputs.includeLabels.filter fun label ↦ !entry.labels.contains label) = [] := by
    simpa [List.filter_eq_nil_iff] using h
  have hlabels : resolveByConfig host inputs entry =
      resolveByConfig host { inputs with includeLabels := [] } entry := by
    unfold resolveByConfig resolveByConfig.resolveByLabels
    rw [hmissing]
    rfl
  unfold resolveEntry
  rw [hlabels]
  rfl

/-- A check which lacks a label of a run is not run. -/
theorem not_isReady_of_label {label : String} (hlabel : label ∈ inputs.includeLabels) (hlacks : label ∉ entry.labels)
    {record : ResolvedEntry} (h : resolveEntry host inputs entry = .ok record) : record.isReady = false := by
  have hmissing : (inputs.includeLabels.filter fun label ↦ !entry.labels.contains label) ≠ [] := by
    intro hnone
    rw [List.filter_eq_nil_iff] at hnone
    exact hnone label hlabel (by simpa using hlacks)
  have hconfig : ∃ terminal, resolveByConfig host inputs entry = some terminal ∧ terminal.IsTerminal := by
    unfold resolveByConfig resolveByConfig.resolveByLabels
    rw [if_pos hmissing]
    split
    · exact ⟨_, rfl, ResolvedEntry.isTerminal_error ..⟩
    · split_ifs
      · exact ⟨_, rfl, ResolvedEntry.isTerminal_skip ..⟩
      · split
        · exact ⟨_, rfl, ResolvedEntry.isTerminal_skip ..⟩
        · exact ⟨_, rfl, ResolvedEntry.isTerminal_skip ..⟩
  obtain ⟨terminal, hterminal, hends⟩ := hconfig
  unfold resolveEntry at h
  rw [hterminal] at h
  cases h
  exact hends.not_isReady

theorem hasLabels_iff : hasLabels labels entry = true ↔ ∀ label ∈ labels, label ≠ "" → label ∈ entry.labels := by
  simp [hasLabels, or_iff_not_imp_left]

/-- What the discovery finds is what a run under the same labels would not leave out: a check which is listed is
resolved as without labels, and one which is not, or of a file which is not found, does not run. An empty label finds
every check and runs none. -/
structure Agrees (configs : Configs) (provider : String) (labels : List String) (found : List ProviderConfigMatch) :
    Prop where
  sorted : (found.map ProviderConfigMatch.configPath).Sublist (sortedNames ((configs.provided provider).getD []))
  resolved : ∀ path ∈ (configs.provided provider).getD [], ∃ entries,
    iterConfigValidations configs path = .ok entries ∧ ∀ inputs, Asks inputs labels → ∀ entry ∈ entries,
      (Lists found path entry → "" ∉ labels →
        resolveEntry configs.host inputs entry =
          resolveEntry configs.host { inputs with includeLabels := [] } entry) ∧
      (¬ Lists found path entry ∨ "" ∈ labels → ∀ record, resolveEntry configs.host inputs entry = .ok record →
        record.isReady = false)

/-- The discovery by labels and the selection of a run by labels agree. -/
theorem discovery_agrees {provider : String} {found : List ProviderConfigMatch}
    (h : discoverProviderLabelConfigs configs provider labels = .ok found) :
    Agrees configs provider labels found := by
  constructor
  case sorted =>
    obtain ⟨options, hoptions, heq⟩ := bind_eq_ok.mp h
    cases heq
    have hsublist := sublist_reduceOption (((mapM_eq_ok_iff.mp hoptions).imp fun path option hmatch ↦
      configPath_of_matchConfig hmatch))
    rwa [List.map_id'] at hsublist
  case resolved =>
    intro path hpath
    obtain ⟨entries, hentries, hlists⟩ := lists_iff h hpath
    refine ⟨entries, hentries, fun inputs hasks entry hentry ↦ ⟨fun hlisted hfull ↦ ?_, fun hleft record hrecord ↦ ?_⟩⟩
    · have hlabels := hasLabels_iff.mp ((hlists entry hentry).mp hlisted)
      refine resolveEntry_of_labels fun label hlabel ↦ ?_
      have hmem := (hasks label).mp hlabel
      exact hlabels label hmem fun hempty ↦ hfull (hempty ▸ hmem)
    · obtain ⟨label, hlabel, hlacks⟩ : ∃ label ∈ labels, label ∉ entry.labels := by
        obtain hunlisted | hempty := hleft
        · by_contra! hall
          exact hunlisted ((hlists entry hentry).mpr (hasLabels_iff.mpr fun label hlabel _ ↦ hall label hlabel))
        · obtain ⟨raw, rfl⟩ := parsed_of_iterConfigValidations hentries
          exact ⟨"", hempty, empty_notMem_labels hentry⟩
      exact not_isReady_of_label ((hasks label).mpr hlabel) hlacks hrecord

section Site

def siteSuite : String := "/configs/suites/k8s.yaml"

def siteConfig : String := "/configs/providers/aws/config/eks.yaml"

/-- The checks of the one provider, of which one has a label. -/
def siteChecks : Items :=
  [(.str "k8s", .dict [(.str "NodeCheck", .dict [(.str "labels", .list [.scalar (.str "gpu")])]),
    (.str "PodCheck", .dict [])])]

def siteTests : Value :=
  .dict [(.str "tests", .dict [(.str "capability", .scalar (.str "kubernetes")), (.str "validations", .dict siteChecks)])]

def siteFiles : FileSystem where
  files := [siteSuite, siteConfig]
  resolve path := path
  parent path := path
  parents path := [path]
  join base path := base ++ "/" ++ path
  expanduser path := .ok path
  isAbsolute path := Text.isAbsolute path
  cwd := "/configs"
  read _ := .ok siteTests
  distinct := by
    intro path value h
    cases h
    simp [siteTests, siteChecks, Value.DistinctKeys, Value.DistinctItems, Scalar.asKey]

/-- A tree with one suite and one provider. -/
def siteConfigs : Configs where
  fs := siteFiles
  host := Runtime.plain
  unicode := UnicodeData.ascii.toUnicode
  suites := [siteSuite]
  provided name := if name = "aws" then some [siteConfig] else none
  distinct := by
    intro provider paths h
    obtain ⟨-, heq⟩ := Option.ite_none_right_eq_some.mp h
    cases heq
    exact List.nodup_singleton siteConfig
  distinctSuites := List.nodup_singleton siteSuite

theorem mergeConfig_site : mergeConfig siteConfigs siteConfig =
    .ok [(.str "tests", .dict [(.str "capability", .scalar (.str "kubernetes")),
      (.str "validations", .dict siteChecks)])] := by
  rw [mergeConfig, mergeYamlFiles, load]
  rfl

/-- The configuration is found by the label of the one check. -/
theorem discovered_site : discoverProviderLabelConfigs siteConfigs "aws" ["gpu"] =
    .ok [⟨siteConfig, [⟨"k8s", "NodeCheck", ["gpu"]⟩]⟩] := by
  have hmatch : matchConfig siteConfigs ["gpu"] siteConfig =
      .ok (some ⟨siteConfig, [⟨"k8s", "NodeCheck", ["gpu"]⟩]⟩) := by
    rw [matchConfig, iterConfigValidations, mergeConfig_site]
    rfl
  rw [discoverProviderLabelConfigs]
  show ([siteConfig].mapM (matchConfig siteConfigs ["gpu"]) >>= _) = _
  rw [List.mapM_cons, hmatch]
  rfl

theorem discovery_agrees_site :
    Agrees siteConfigs "aws" ["gpu"] [⟨siteConfig, [⟨"k8s", "NodeCheck", ["gpu"]⟩]⟩] :=
  discovery_agrees discovered_site

end Site

end IsvValidation.Config
