import IsvValidation.Config.Value

/-!
# Schema of a test run configuration

The parts of the pydantic models which the orchestrator reads: steps, the commands of one test
target, the test configuration and the merged `RunConfig`.
-/

namespace IsvValidation.Config

/-- The exclusive execution environments a check or a step may require. -/
def declarableCapabilities : List String := ["bare_metal", "kubernetes", "slurm", "vm"]

/-- One command of the `steps` list. -/
structure StepConfig where
  name : String
  command : String
  args : List String := []
  timeout : Option Int := some 300
  env : List (String × String) := []
  workingDir : Option String := none
  skip : Bool := false
  requires : List String := []
  continueOnFailure : Bool := false
  phase : String := "setup"
  outputSchema : Option String := none
  sensitiveArgs : List String := []
  deriving DecidableEq

/-- The commands of one test target: its phases in execution order and its steps. -/
structure PlatformCommands where
  skip : Bool := false
  phases : List String := ["setup", "teardown"]
  steps : List StepConfig := []
  deriving DecidableEq

/-- The `tests:` section. -/
structure ValidationConfig where
  capability : Option String := none
  settings : Items := []
  validations : Items := []
  exclude : Items := []

/-- The merged configuration. `lab` is the dumped lab metadata and `rootPlatform` the legacy
`platform` key at the top level. -/
structure RunConfig where
  lab : Option Items := none
  commands : List (String × PlatformCommands) := []
  context : Items := []
  tests : Option ValidationConfig := none
  rootPlatform : Option String := none

/-- Why a value is not a valid `requires` list, or `none` when it is. -/
def requiresError (values : Value) : Option String :=
  match values with
  | .list items =>
    if items.any fun item ↦ !(item.str?.any (declarableCapabilities.contains ·)) then
      some notDeclarable
    else if ¬(items.filterMap Value.str?).Nodup then
      some "requires must not contain duplicates"
    else none
  | _ => some notDeclarable
where
  notDeclarable : String :=
    "requires must be a list containing only: " ++ ", ".intercalate declarableCapabilities

namespace RunConfig

/-- The steps of a test target. -/
def getSteps (config : RunConfig) (platform : String) : Except PyError (List StepConfig) :=
  match config.commands.lookup platform with
  | none => .error (.keyError s!"Test target '{platform}' not configured in commands")
  | some commands => .ok commands.steps

/-- The ordered phases of a test target. -/
def getPhases (config : RunConfig) (platform : String) : Except PyError (List String) :=
  match config.commands.lookup platform with
  | none => .error (.keyError s!"Test target '{platform}' not configured in commands")
  | some commands => .ok commands.phases

/-- A configuration with one test target, its phases and steps, and one category of validations. -/
def sample (phases : List String) (steps : List StepConfig) (validations : List Value) :
    RunConfig :=
  { commands := [("vm", { phases, steps })]
    tests := some { validations := [(.str "checks", .list validations)] } }

/-- A step for setup and one for teardown, a validation of the first and one of a phase which is not
configured. -/
def lifecycle : RunConfig :=
  sample ["setup", "test", "teardown"]
    [{ name := "create", command := "create.sh" },
      { name := "delete", command := "delete.sh", phase := "teardown" }]
    [.dict [(.str "PingCheck", .dict [(.str "step", .str "create")]),
      (.str "DiskCheck", .dict [(.str "phase", .str "upgrade")])]]

/-- Setup and teardown without validations; the second step's command may be chosen. -/
def twoPhases (command : String) : RunConfig :=
  sample ["setup", "teardown"]
    [{ name := "create", command := "create.sh" }, { name := "check", command },
      { name := "delete", command := "delete.sh", phase := "teardown" }] []

end RunConfig

end IsvValidation.Config
