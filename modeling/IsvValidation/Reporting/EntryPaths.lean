import IsvValidation.Config.LabelDiscovery
import IsvValidation.Reporting.TestCommand

/-!
# A suite or its file

The command `test run` is given files or the name of a suite. What it selects by a suite it runs as if it were given the
file.
-/

namespace IsvValidation.Reporting

open Config Host Library Library.Program

/-! ## A command in a tree of configurations -/

/-- The files which are discovered; none where the discovery raises. -/
def discoveredPaths (configs : Configs) (provider : String) (labels : List String) : List String :=
  match discoverProviderLabelConfigs configs provider labels with
  | .ok found => found.map ProviderConfigMatch.configPath
  | .error _ => []

/-- The suite which is selected; none where this raises. -/
def selectedSuite (configs : Configs) (suite : String) (provider : Option String) : Option (String × String) :=
  match resolveSuite configs provider suite with
  | .ok selected => some (selected.name, selected.configPath)
  | .error _ => none

def parsedCapability (configs : Configs) (value : String) : Option String :=
  match parseCapability configs (some value) with
  | .ok capability => capability
  | .error _ => none

/-- A command which finds its configurations in a tree, with the directories of the providers. -/
def Setup.over (setup : Setup) (configs : Configs) (directories : List String) : Setup :=
  { setup with
    fs := configs.fs
    parseCapability := parsedCapability configs
    selectSuite := selectedSuite configs
    providers := listProviders configs directories
    discover := discoveredPaths configs
    suiteName := resolveSuiteName configs }

/-! ## Providers in the tree -/

variable {setup : Setup} {invocation : Invocation} {capability suite : Option String} {files : List String}
  {demo : DemoMode}

theorem ensure_of_inTree {provider : String} (h : setup.site.world.inTree provider = true) :
    ensure setup provider = .ok none := by
  rw [ensure, Registry.ensureFetched, h, if_pos rfl]

theorem demoAfter_of_none {provider : String} (h : ensure setup provider = .ok none) :
    demoAfter setup provider demo = demo := by
  simp [demoAfter, h]

theorem checkProviderConfig_of_none {provider : String} (h : ensure setup provider = .ok none) :
    checkProviderConfig setup [provider] = checkProviderConfig setup [] := by
  funext path
  unfold checkProviderConfig
  cases externalProviderForPath setup path with
  | none => rfl
  | some name =>
    by_cases hname : name = provider
    · simp [hname, h]
    · simp [hname]

theorem loadEvents_congr {checked checked' : List String}
    (h : checkProviderConfig setup checked = checkProviderConfig setup checked') (files : List String) :
    loadEvents setup checked files = loadEvents setup checked' files := by
  induction files with
  | nil => rfl
  | cons path rest ih => rw [loadEvents, loadEvents, h, ih]

/-- A provider which has nothing to say may have been checked before or not. -/
theorem foldl_afterLoad_of_none {provider : String} (h : ensure setup provider = .ok none) {events : List LoadEvent}
    {one other : List String × DemoMode} (hchecked : provider ∈ one.1)
    (hnames : ∀ name, name ≠ provider → (name ∈ one.1 ↔ name ∈ other.1)) (hdemo : one.2 = other.2) :
    (events.foldl (afterLoad setup) one).2 = (events.foldl (afterLoad setup) other).2 := by
  induction events generalizing one other with
  | nil => exact hdemo
  | cons event rest ih =>
    rw [List.foldl_cons, List.foldl_cons]
    cases event with
    | read path => exact ih hchecked hnames hdemo
    | checked path =>
      cases hprovider : externalProviderForPath setup path with
      | none =>
        rw [afterLoad_of_none hprovider, afterLoad_of_none hprovider]
        exact ih hchecked hnames hdemo
      | some name =>
        rw [afterLoad_of_some hprovider, afterLoad_of_some hprovider]
        by_cases hname : name = provider
        · rw [hname, if_pos hchecked]
          split_ifs
          · exact ih hchecked hnames hdemo
          · refine ih hchecked (fun name hne ↦ ?_) ?_
            · rw [hnames name hne, List.mem_cons, or_iff_right hne]
            · rw [hdemo, demoAfter_of_none h]
        · by_cases hmem : name ∈ one.1
          · rw [if_pos hmem, if_pos ((hnames name hname).mp hmem)]
            exact ih hchecked hnames hdemo
          · rw [if_neg hmem, if_neg fun hother ↦ hmem ((hnames name hname).mpr hother)]
            refine ih (List.mem_cons_of_mem _ hchecked) (fun other hne ↦ ?_) ?_
            · rw [List.mem_cons, List.mem_cons, hnames other hne]
            · rw [hdemo]

theorem runMerged_of_none {provider : String} (h : ensure setup provider = .ok none) :
    runMerged setup invocation capability [provider] files suite demo =
      runMerged setup invocation capability [] files suite demo := by
  have hfold : ∀ events : List LoadEvent, (events.foldl (afterLoad setup) ([provider], demo)).2 =
      (events.foldl (afterLoad setup) ([], demo)).2 := by
    intro events
    refine foldl_afterLoad_of_none h (List.mem_singleton_self provider) (fun name hne ↦ ?_) rfl
    simp [hne]
  unfold runMerged
  rw [checkProviderConfig_of_none h, loadEvents_congr (checkProviderConfig_of_none h), hfold]

theorem runMerged_named {checked : List String} {name : String} (h : setup.suiteName files = .ok (some name)) :
    runMerged setup invocation capability checked files (some name) demo =
      runMerged setup invocation capability checked files none demo := by
  unfold runMerged
  rw [runSuiteName, runSuiteName, h]

/-! ## A suite or its file -/

/-- The same command, which is given a file. -/
def Invocation.withFile (invocation : Invocation) (path : String) : Invocation :=
  { invocation with suite := none, provider := none, configFiles := [path] }

/-- The directory in which a configuration of a provider lies, as the registry tells it from its path. -/
def LiesIn (setup : Setup) (provider : Option String) (path : String) : Prop :=
  externalProviderForPath setup path = provider.filter fun name ↦ !setup.site.world.inTree name

instance (setup : Setup) (provider : Option String) (path : String) : Decidable (LiesIn setup provider path) :=
  inferInstanceAs (Decidable (_ = _))

theorem runFiles_single {path : String} : runFiles setup invocation capability [path] demo =
    policed setup (externalProviderForPath setup path).toList
      (runMerged setup invocation capability (externalProviderForPath setup path).toList [path] none) demo := by
  have hprovider : [path].filterMap (externalProviderForPath setup) = (externalProviderForPath setup path).toList := by
    cases hpath : externalProviderForPath setup path <;> simp [hpath]
  unfold runFiles
  rw [hprovider]
  rfl

theorem applyPolicies_single {provider : String} {found : Option Registry.RegistryEntry}
    (h : ensure setup provider = .ok found) :
    applyPolicies setup [provider] demo = (.ok (), demoAfter setup provider demo) := by
  rw [applyPolicies, h]
  rfl

theorem policed_single {provider : String} {runs : DemoMode → Run Ended} {found : Option Registry.RegistryEntry}
    (h : ensure setup provider = .ok found) :
    policed setup [provider] runs demo = runs (demoAfter setup provider demo) := by
  unfold policed
  rw [show [provider].eraseDups = [provider] from rfl, applyPolicies_single h]

/-- Before the run of a file, the policy of its provider may be applied or not. -/
theorem policed_runFile {provider : Option String} {path : String} {runs : DemoMode → Run Ended}
    (hlies : LiesIn setup provider path)
    (hruns : runs = runMerged setup invocation capability provider.toList [path] none) :
    policed setup provider.toList runs demo = runFiles setup invocation capability [path] demo := by
  rw [hruns, runFiles_single, hlies]
  cases provider with
  | none => rfl
  | some name =>
    cases hinTree : setup.site.world.inTree name with
    | false => simp [Option.filter, hinTree]
    | true =>
      have hensure := ensure_of_inTree hinTree
      have hfilter : ((some name).filter fun name ↦ !setup.site.world.inTree name) = none := by
        simp [Option.filter, hinTree]
      rw [hfilter]
      show policed setup [name] _ demo = _
      rw [policed_single hensure, demoAfter_of_none hensure]
      exact runMerged_of_none hensure

/-- The command with the name of a suite is the command with the file of the suite, where the suites which the file
imports are of this tree. -/
theorem runCommand_suite {configs : Configs} {directories : List String} {name : String} {selected : ResolvedSuite}
    (hfiles : invocation.configFiles = []) (hsuite : invocation.suite = some name)
    (hselected : resolveSuite configs invocation.provider name = .ok selected)
    (htree : ∀ data, configs.fs.read selected.configPath = .ok data → ∀ value ∈ suiteImports data,
      ∃ file ∈ configs.suites, pathStem file = pathStem value)
    (hlies : LiesIn (setup.over configs directories) invocation.provider selected.configPath) :
    runCommand (setup.over configs directories) invocation =
      runCommand (setup.over configs directories) (invocation.withFile selected.configPath) := by
  have hruns : ∀ capability, runSuite (setup.over configs directories) invocation capability
      invocation.provider.toList name = runMerged (setup.over configs directories) invocation capability
        invocation.provider.toList [selected.configPath] none := by
    intro capability
    funext demo
    have hfound : selectedSuite configs name invocation.provider = some (selected.name, selected.configPath) := by
      rw [selectedSuite, hselected]
    unfold runSuite
    rw [hfiles]
    rw [show (setup.over configs directories).selectSuite name invocation.provider =
      some (selected.name, selected.configPath) from hfound]
    exact runMerged_named (resolveSuiteName_selected hselected htree)
  funext demo
  have hselection : runSelected (setup.over configs directories) invocation demo =
      runSelected (setup.over configs directories) (invocation.withFile selected.configPath) demo := by
    have hnamed : namedProviders (setup.over configs directories) invocation = invocation.provider.toList := by
      rw [namedProviders, hfiles, List.filterMap_nil, List.append_nil]
    have hpoliced : ∀ capability, policed (setup.over configs directories) invocation.provider.toList
        (runSuite (setup.over configs directories) invocation capability invocation.provider.toList name) demo =
          runFiles (setup.over configs directories) invocation capability [selected.configPath] demo :=
      fun capability ↦ policed_runFile hlies (hruns capability)
    unfold runSelected
    rw [hsuite, hnamed]
    dsimp only [Invocation.withFile]
    split
    · rfl
    · exact hpoliced _
  unfold runCommand preserveDemoMode
  rw [hselection]

section Site

def siteCommand : Setup where
  machine := plainMachine
  environment := siteEnvironment
  tools := Registry.acmeTools
  site := ⟨⟨fun name ↦ name = "aws", fun _ ↦ none⟩, fun _ ↦ none⟩
  status _ := "live"
  fs := siteFiles
  safeLoad _ := .yamlError
  externalRoot := "/configs/providers-external"
  parseCapability _ := none
  selectSuite _ _ := none
  providers := []
  discover _ _ := []
  suiteName _ := .ok none
  validate _ := some (some "kubernetes", ["k8s"])
  startTime _ := "2026-01-01T00:00:00Z"

theorem resolveSuite_site : resolveSuite siteConfigs (some "aws") "K8S" =
    .ok ⟨siteConfig, "kubernetes", some "kubernetes"⟩ := by
  have hname : suiteName siteConfigs ["kubernetes"] siteConfig = .ok ("kubernetes", some "kubernetes") := by
    rw [suiteName, mergeConfig_site]
    rfl
  have hclassified : classify siteConfigs ["kubernetes"] [siteConfig] =
      .ok [⟨siteConfig, "kubernetes", some "kubernetes"⟩] := by
    rw [classify, hname]
    rfl
  rw [resolveSuite]
  show ((classify siteConfigs ["kubernetes"] [siteConfig]).mapError SelectionError.raised >>= _) = _
  rw [hclassified]
  rfl

def siteSuiteInvocation : Invocation where
  suite := some "K8S"
  provider := some "aws"
  report := siteOptions

theorem runCommand_suite_site : runCommand (siteCommand.over siteConfigs ["aws"]) siteSuiteInvocation =
    runCommand (siteCommand.over siteConfigs ["aws"]) (siteSuiteInvocation.withFile siteConfig) := by
  have hselected : resolveSuite siteConfigs siteSuiteInvocation.provider "K8S" =
      .ok ⟨siteConfig, "kubernetes", some "kubernetes"⟩ := resolveSuite_site
  have hlies : LiesIn (siteCommand.over siteConfigs ["aws"]) siteSuiteInvocation.provider siteConfig := by decide
  refine runCommand_suite rfl rfl hselected ?_ hlies
  intro data hdata value hvalue
  cases hdata
  cases hvalue

end Site

end IsvValidation.Reporting
