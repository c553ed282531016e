import IsvValidation.Config.SetValue
import IsvValidation.Registry.Commands
import IsvValidation.Reporting.Lifecycle

/-!
# The command `test run`

The command selects the configurations which are run: the files which it is given, the one of a suite, or those of a
provider which match labels, each in a run of its own. Before a file of a fetched provider is read, the registry is
asked for the provider. No run is made of a checkout which is not what the registry pins, and of a provider which
only demonstrates nothing is reported.
-/

namespace IsvValidation.Reporting

open Config Host Library Library.Program
open Registry (RegistryEntry ensureFetched)

universe w

/-! ## The command -/

/-- What the command runs in: the registry and the checkouts, the files, and what is found in the configurations.
Providers, configurations of a provider which match labels, the one of a suite, and the name of the suite to which
files belong are found by the layer below; `validate` reads the declared capability and the names of the commands, and
`startTime` is read from the clock before files are run. -/
structure Setup where
  machine : Machine
  environment : Environment
  tools : Registry.Tools
  site : Registry.Site
  status : RegistryEntry → String
  fs : FileSystem
  safeLoad : String → YamlText Value
  externalRoot : String
  parseCapability : String → Option String
  selectSuite : (suite : String) → (provider : Option String) → Option (String × String)
  providers : List String
  discover : (provider : String) → (labels : List String) → List String
  suiteName : List String → Except PyError (Option String)
  validate : Value → Option (Option String × List String)
  startTime : List String → String

/-- The options; a provider or a suite which is empty counts as one which is not given. -/
structure Invocation where
  configFiles : List String := []
  provider : Option String := none
  suite : Option String := none
  capability : Option String := none
  setValues : List String := []
  labels : List String := []
  dryRun : Bool := false
  report : Options

/-- The value of the variable `ISVCTL_DEMO_MODE`. -/
abbrev DemoMode : Type := Option String

/-- What a command comes to, and the variable when it ends. -/
abbrev Ended : Type := Except Raised Unit × DemoMode

section Command

variable (setup : Setup) (invocation : Invocation)

/-- `external_provider_for_path`. -/
def externalProviderForPath (path : String) : Option String :=
  let root := Text.pathParts (setup.fs.resolve setup.externalRoot)
  let parts := Text.pathParts (setup.fs.resolve path)
  if root.isPrefixOf parts then
    match parts.drop root.length with
    | name :: _ :: _ => some name
    | _ => none
  else none

def ensure (name : String) : Except Unit (Option RegistryEntry) := ensureFetched setup.tools setup.site name

/-- What the policy of a provider makes of the variable. -/
def demoAfter (name : String) (demo : DemoMode) : DemoMode :=
  match ensure setup name with
  | .ok (some entry) => if setup.status entry = "demo" then some "1" else demo
  | _ => demo

/-- `_apply_provider_registry_policy` for one provider after the other; an error ends the command. -/
def applyPolicies : List String → DemoMode → Ended
  | [], demo => (.ok (), demo)
  | name :: rest, demo =>
    match ensure setup name with
    | .error () => (.error (.exit 1), demo)
    | .ok _ => applyPolicies rest (demoAfter setup name demo)

/-- `check_provider_config`. A provider which has been checked is not checked again. -/
def checkProviderConfig (checked : List String) (path : String) : Except PyError Unit :=
  match externalProviderForPath setup path with
  | none => .ok ()
  | some name =>
    if name ∈ checked then .ok ()
    else
      match ensure setup name with
      | .error () => .error (.other "ProviderRegistryError" name)
      | .ok _ => .ok ()

/-- What `check_provider_config` makes of the checked providers and of the variable. -/
def afterLoad (state : List String × DemoMode) : LoadEvent → List String × DemoMode
  | .read _ => state
  | .checked path =>
    match externalProviderForPath setup path with
    | none => state
    | some name => if name ∈ state.1 then state else (name :: state.1, demoAfter setup name state.2)

/-- What is done to load the files, up to the one which fails. -/
def loadEvents (checked : List String) : List String → List LoadEvent
  | [] => []
  | path :: rest =>
    match load setup.fs (checkProviderConfig setup checked) path [] with
    | (.error _, events) => events
    | (.ok _, events) => events ++ loadEvents checked rest

/-- `_resolve_capability_context`. -/
def resolveCapabilityContext (declared capability : Option String) : Option (Option String) :=
  match declared.filter (· ≠ "") with
  | some declared => if capability.isSome then none else some (some declared)
  | none => some (some (capability.getD "core"))

/-- The suite of a run: the one which was selected, or the one to which its files belong. -/
def runSuiteName (suite : Option String) (files : List String) : Except PyError (Option String) :=
  match suite with
  | some suite => .ok (some suite)
  | none => setup.suiteName files

/-- What a run comes to: a failure of the tests is the exit code 1. -/
def endedBy : Except Raised ℕ → Except Raised Unit
  | .ok code => if code = 0 then .ok () else .error (.exit code)
  | .error raised => .error raised

/-- `run`, from the files which are loaded on. -/
def runMerged (capability : Option String) (checked files : List String) (suite : Option String) (demo : DemoMode) :
    Run Ended :=
  let demo := ((loadEvents setup checked files).foldl (afterLoad setup) (checked, demo)).2
  match mergeYamlFilesSet setup.fs (checkProviderConfig setup checked) setup.safeLoad files invocation.setValues with
  | .error _ => return (.error (.exit 1), demo)
  | .ok merged =>
    match setup.validate merged with
    | none => return (.error (.exit 1), demo)
    | some (declared, commands) =>
      match runSuiteName setup suite files, resolveCapabilityContext declared capability with
      | .error _, _ => return (.error (.exit 1), demo)
      | _, none => return (.error (.exit 1), demo)
      | .ok suite, some context =>
        if invocation.dryRun then return (.ok (), demo)
        else do
          let options : Options := { invocation.report with
            demo := demo = some "1"
            suite
            declared
            commands
            context
            startTime := setup.startTime files }
          let code ← (testRun setup.machine setup.environment options).attempt
          return (endedBy code, demo)

/-- The policies of the providers to begin with, and then the runs. -/
def policed (providers : List String) (runs : DemoMode → Run Ended) (demo : DemoMode) : Run Ended :=
  match applyPolicies setup providers.eraseDups demo with
  | (.error raised, demo) => return (.error raised, demo)
  | (.ok (), demo) => runs demo

/-- `run` of files. -/
def runFiles (capability : Option String) (files : List String) : DemoMode → Run Ended :=
  let providers := files.filterMap (externalProviderForPath setup)
  policed setup providers fun demo ↦
    if files = [] then return (.error (.exit 1), demo)
    else runMerged setup invocation capability providers files none demo

/-- `_preserve_demo_mode`. -/
def preserveDemoMode (command : DemoMode → Run Ended) (demo : DemoMode) : Run Ended := do
  let ended ← command demo
  return (ended.1, demo)

/-- One run for each configuration; the first failure ends the command. -/
def runEach (capability : Option String) : List String → DemoMode → Run Ended
  | [], demo => return (.ok (), demo)
  | path :: rest, demo => do
    let ended ← preserveDemoMode (runFiles setup invocation capability [path]) demo
    match ended.1 with
    | .error raised => return (.error raised, ended.2)
    | .ok () => runEach capability rest ended.2

/-- The configurations of a provider which match the labels. -/
def runDiscovered (capability : Option String) (provider : String) (demo : DemoMode) : Run Ended :=
  if invocation.configFiles ≠ [] ∨ invocation.labels = [] ∨ provider ∉ setup.providers then
    return (.error (.exit 1), demo)
  else
    match setup.discover provider invocation.labels with
    | [] => return (.error (.exit 1), demo)
    | configs =>
      if invocation.dryRun then return (.ok (), demo)
      else runEach setup invocation capability configs demo

/-- The configuration of a suite. -/
def runSuite (capability : Option String) (providers : List String) (suite : String) (demo : DemoMode) : Run Ended :=
  if invocation.configFiles ≠ [] then return (.error (.exit 1), demo)
  else
    match setup.selectSuite suite invocation.provider with
    | none => return (.error (.exit 1), demo)
    | some (name, path) => runMerged setup invocation capability providers [path] (some name) demo

/-- The providers which a command names, by itself or by the files which it is given. -/
def namedProviders : List String :=
  invocation.provider.toList ++ invocation.configFiles.filterMap (externalProviderForPath setup)

/-- `run`, within `_preserve_demo_mode`. -/
def runSelected (demo : DemoMode) : Run Ended :=
  match invocation.capability.map setup.parseCapability with
  | some none => return (.error (.exit 1), demo)
  | capability =>
    let providers := namedProviders setup invocation
    match invocation.suite, invocation.provider with
    | some suite, _ => policed setup providers (runSuite setup invocation capability.join providers suite) demo
    | none, some provider => policed setup providers (runDiscovered setup invocation capability.join provider) demo
    | none, none => runFiles setup invocation capability.join invocation.configFiles demo

/-- `run`. -/
def runCommand : DemoMode → Run Ended := preserveDemoMode (runSelected setup invocation)

end Command

/-! ## Policies -/

variable {setup : Setup} {invocation : Invocation}

theorem afterLoad_of_none {state : List String × DemoMode} {path : String}
    (h : externalProviderForPath setup path = none) : afterLoad setup state (.checked path) = state := by
  simp [afterLoad, h]

theorem afterLoad_of_some {state : List String × DemoMode} {path name : String}
    (h : externalProviderForPath setup path = some name) : afterLoad setup state (.checked path) =
      if name ∈ state.1 then state else (name :: state.1, demoAfter setup name state.2) := by
  simp [afterLoad, h]

end IsvValidation.Reporting
