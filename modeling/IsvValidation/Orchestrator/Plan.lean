import IsvValidation.Orchestrator.StepExecutor
import IsvValidation.Resolution.Resolve

/-!
# From a configuration to a plan

What `run` and the first half of `_run_steps_mode` decide before any phase: the platform, the
phases, the steps after capability gating, the validation entries and the exclusions. Some
configurations are answered at once, without entering the phase loop.
-/

namespace IsvValidation.Orchestrator

open Config Host Library Resolution

/-- Test lifecycle phases, as a user requests them and as results show them. -/
inductive Phase where
  | all
  | setup
  | test
  | teardown
  deriving DecidableEq

def Phase.value : Phase → String
  | all => "all"
  | setup => "setup"
  | test => "test"
  | teardown => "teardown"

/-- `_phase_enum_for_name`. -/
def phaseEnumForName (name : String) : Phase :=
  if name = "setup" then .setup else if name = "teardown" then .teardown else .test

/-- Details of one step in a phase result. -/
structure StepDetail where
  name : String
  success : Bool
  error : Option Json
  output : Json
  schemaName : Option String
  schemaValid : Bool
  schemaErrors : List String

/-- `_resolved_entry_to_result_dict`. -/
structure ValidationDetail where
  name : String
  passed : Bool
  skipped : Bool
  message : String
  category : String
  labels : List String
  state : Option State
  skipReason : Option SkipReason
  errorReason : Option ErrorReason
  subtestSummary : SubtestSummary
  deriving DecidableEq

structure PhaseDetails where
  pytestExitCode : Option Int := none
  steps : List StepDetail := []
  validations : List ValidationDetail := []

/-- Result of a single phase. -/
structure PhaseResult where
  phase : Phase
  success : Bool
  message : String
  details : Option PhaseDetails := none

/-- The validations in the details of a phase result. -/
def PhaseResult.validations (result : PhaseResult) : List ValidationDetail :=
  (result.details.map PhaseDetails.validations).getD []

/-- Result of the full orchestration run. -/
structure OrchestratorResult where
  success : Bool
  phases : List PhaseResult
  inventory : Option Value := none
  validations : List ResolvedEntry := []

/-- The arguments of `run`. -/
structure RunOptions where
  phases : List Phase := [.setup, .test, .teardown]
  teardownOnFailure : Bool := true
  extraPytestArgs : List String := []
  includeLabels : List String := []
  excludeLabels : List String := []
  capability : Option String := none
  verbose : Bool := false
  junitxml : Option String := none

/-! ## Platform, phases and gates -/

/-- `_detect_platform`; an empty string counts as none. -/
def detectPlatform (config : RunConfig) (capability : Option String) : Option String :=
  let declared := match (config.tests.bind ValidationConfig.capability).filter (· ≠ "") with
    | some platform => some platform
    | none => config.rootPlatform.filter (· ≠ "")
  let sole := match config.commands with
    | [(platform, _)] => some platform
    | _ => none
  let context := if config.commands.isEmpty then
      some ((capability.filter declarableCapabilities.contains).getD "validations")
    else none
  let platform := (declared.or (sole.filter (· ≠ ""))).or context
  platform.map fun platform ↦ if platform = "k8s" then "kubernetes" else platform

/-- `_requested_config_phases`. -/
def requestedConfigPhases (configPhases : List String) (requested : List Phase) : List String :=
  if requested.contains .all then configPhases
  else configPhases.filter (requested.map Phase.value).contains

/-- `_has_explicit_pytest_selection`. -/
def hasExplicitPytestSelection (args : List String) : Bool :=
  args.any fun arg ↦
    arg == "-k" || Text.startsWith arg "-k=" || arg == "-m" || Text.startsWith arg "-m="

/-- Whether a step is switched off by its own requirements or by those of all its validations. -/
def gatedByCapability (entries : List ValidationEntry) (capability : String) (step : StepConfig) :
    Bool :=
  let bound := entries.filter (·.step = some step.name)
  if !step.requires.isEmpty && !requirementsSatisfied step.requires capability then true
  else !bound.isEmpty && bound.all fun entry ↦ !requirementsSatisfied entry.requires capability

/-- `_apply_capability_step_gates`. -/
def applyCapabilityStepGates (steps : List StepConfig) (entries : List ValidationEntry)
    (capability : Option String) : List StepConfig :=
  match capability with
  | none => steps
  | some capability =>
    steps.map fun step ↦
      if gatedByCapability entries capability step then { step with skip := true } else step

/-- `(step.phase or "setup").lower()`. -/
def stepPhase (host : Runtime) (step : StepConfig) : String :=
  host.unicode.lower (if step.phase = "" then "setup" else step.phase)

/-! ## The plan -/

/-- Everything the phase loop reads. `steps` are the gated steps; the position of a step in this
list identifies it. -/
structure Plan where
  platform : String
  configPhases : List String
  steps : List StepConfig
  entries : List ValidationEntry
  settings : Items
  excludeLabels : List Scalar
  excludeTests : Value
  options : RunOptions

namespace Plan

variable (plan : Plan)

/-- The phase is in the requested set. -/
def requests (phase : String) : Bool :=
  (plan.options.phases.map Phase.value).contains phase || plan.options.phases.contains .all

/-- The phase names against which entries are resolved. -/
def requestedPhases : List String :=
  if plan.options.phases.contains .all then plan.configPhases
  else plan.options.phases.map Phase.value

/-- `steps_by_phase[phase]`, each step with its position. -/
def phaseSteps (host : Runtime) (phase : String) : List (ℕ × StepConfig) :=
  (plan.steps.zipIdx.map fun item ↦ (item.2, item.1)).filter fun item ↦
    stepPhase host item.2 = phase

def skippedSteps : List String := (plan.steps.filter StepConfig.skip).map StepConfig.name

end Plan

/-- What happens before the phase loop: an answer at once, or a plan with the context. -/
inductive Prepared where
  | early (result : OrchestratorResult)
  | ready (plan : Plan) (context : Context)

/-- A run which ends before the phase loop with one failed phase. -/
def failedEarly (phase : Phase) (message : String) : Prepared :=
  .early { success := false, phases := [{ phase, success := false, message }] }

/-- `set(self._exclude_labels)`, extended by the labels of the configuration. -/
def resolutionExcludeLabels (options : RunOptions) (exclude : Items) :
    Except PyError (List Scalar) :=
  let own := options.excludeLabels.map Scalar.str
  if !options.includeLabels.isEmpty || hasExplicitPytestSelection options.extraPytestArgs then
    .ok own
  else do
    let configured ← ((exclude.lookup (.str "labels")).getD (.list [])).toSet
    return own ++ configured

/-- The plan for phases and steps which are settled. -/
def preparePlan (host : Runtime) (config : RunConfig) (options : RunOptions) (platform : String)
    (configPhases : List String) (steps : List StepConfig) : Except PyError Prepared :=
  let tests := config.tests.getD {}
  let entries := parseValidations host tests.validations
  if config.commands.isEmpty && entries.isEmpty then
    .ok (failedEarly .test "No validations configured: a run without commands would assert nothing")
  else
    let steps := applyCapabilityStepGates steps entries options.capability
    match steps.find? fun step ↦ !configPhases.contains (stepPhase host step) with
    | some step =>
      let phase := stepPhase host step
      let listed := host.quoted configPhases
      .ok (failedEarly .setup
        s!"Step '{step.name}' has phase '{phase}' not in phases list: {listed}")
    | none => do
      let excludeLabels ← resolutionExcludeLabels options tests.exclude
      let context := (steps.filter fun step ↦ !step.skip).foldl
        (fun context step ↦ context.setStepPhase step.name (stepPhase host step))
        (Context.ofConfig host config)
      return .ready
        { platform, configPhases, steps, entries
          settings := tests.settings
          excludeLabels
          excludeTests := (tests.exclude.lookup (.str "tests")).getD (.list [])
          options } context

/-- `run` and `_run_steps_mode` up to the phase loop. -/
def prepare (host : Runtime) (config : RunConfig) (options : RunOptions) :
    Except PyError Prepared :=
  match detectPlatform config options.capability with
  | none => .ok (failedEarly .setup "Cannot determine platform from configuration")
  | some platform =>
    if config.commands.isEmpty then preparePlan host config options platform ["test"] []
    else do
      let configPhases ← config.getPhases platform
      let steps ← config.getSteps platform
      if (config.commands.lookup platform).any PlatformCommands.skip then
        return .early
          { success := true
            phases := (requestedConfigPhases configPhases options.phases).map fun phase ↦
              { phase := phaseEnumForName phase
                success := true
                message := s!"SKIPPED: platform '{platform}' is skipped by configuration" }
            inventory := some (.dict []) }
      else if steps.isEmpty then
        return failedEarly .setup s!"No steps defined for platform: {platform}"
      else preparePlan host config options platform configPhases steps

/-! ## Phase results -/

/-- `_resolved_entry_to_result_dict`. -/
def toResultDict (record : ResolvedEntry) : ValidationDetail :=
  { name := record.entry.name
    passed := record.state = some .passed ∨ record.state = some .skipped
    skipped := record.state = some .skipped
    message := record.message
    category := record.entry.category
    labels := record.entry.labels
    state := record.state
    skipReason := record.skipReason
    errorReason := record.errorReason
    subtestSummary := record.subtestSummary }

/-- A detail is found by the name and the category of its record, and says how it ended. -/
theorem toResultDict_keeps (record : ResolvedEntry) : (toResultDict record).name = record.entry.name ∧
    (toResultDict record).category = record.entry.category ∧ (toResultDict record).state = record.state :=
  ⟨rfl, rfl, rfl⟩

/-- `_resolved_entry_success`. -/
def entrySuccess (record : ResolvedEntry) : Bool :=
  record.state = some .passed || record.state = some .skipped

/-- `step.error == "Step skipped"`. -/
def StepResult.isPlaceholder (step : StepResult) : Bool :=
  match step.error with
  | some (.str text) => text == "Step skipped"
  | _ => false

/-- The words under which a step is reported. -/
def stepStatus (step : StepResult) : Except PyError String :=
  if step.isPlaceholder then .ok "skipped"
  else if step.success then
    if step.output.truthy then do
      let reported ← step.output.get "skipped"
      return if reported.any Json.truthy then "skipped" else "passed"
    else .ok "passed"
  else .ok "failed"

/-- The words for a pytest exit code other than success. -/
def exitCodeName (code : Int) : String :=
  if code = 1 then "tests failed"
  else if code = 2 then "interrupted"
  else if code = 3 then "internal error"
  else if code = 4 then "usage error"
  else "unknown status"

def stepDetail (host : Runtime) (step : StepResult) : StepDetail :=
  { name := step.name
    success := step.success
    error := step.error
    output := host.redactDict step.output
    schemaName := step.schemaName
    schemaValid := step.schemaValid
    schemaErrors := step.schemaErrors }

/-- The exit code lets the phase succeed: no session, `OK` or `NO_TESTS_COLLECTED`. -/
def exitAccepted (exitCode : Option Int) : Bool :=
  exitCode.all fun code ↦ code == 0 || code == 5

/-- What the exit code adds to the message of a phase. -/
def exitMessage (displayName : String) (exitCode : Option Int) : String :=
  match exitCode with
  | none => ""
  | some code =>
    if code = 5 then
      s!"; WARNING: No tests collected by pytest in {displayName} phase (exit code 5); " ++
        "check pytest selection arguments"
    else if code = 0 then ""
    else
      let status := exitCodeName code
      s!"; pytest failed: {status} (exit code {code})"

/-- `_create_phase_result`. -/
def createPhaseResult (host : Runtime) (phase : Phase) (results : StepResults)
    (validations : List ValidationDetail) (phaseName : String) (exitCode : Option Int) :
    Except PyError PhaseResult := do
  let displayName := if phaseName = "" then phase.value else phaseName
  let messages ← results.steps.mapM fun step ↦ do
    let status ← stepStatus step
    return s!"{step.name}: {status}"
  let message := if messages.isEmpty then s!"{displayName} phase completed"
    else "; ".intercalate messages
  return {
    phase
    success := results.success && validations.all ValidationDetail.passed && exitAccepted exitCode
    message := message ++ exitMessage displayName exitCode
    details := some
      { pytestExitCode := exitCode
        steps := results.steps.map (stepDetail host)
        validations } }

theorem passed_toResultDict (record : ResolvedEntry) :
    (toResultDict record).passed = entrySuccess record := by
  simp [toResultDict, entrySuccess]

/-- A phase result carries the validations it is given, and its verdict. -/
theorem createPhaseResult_ok {host : Runtime} {phase : Phase} {results : StepResults}
    {validations : List ValidationDetail} {phaseName : String} {exitCode : Option Int}
    {result : PhaseResult}
    (h : createPhaseResult host phase results validations phaseName exitCode = .ok result) :
    result.validations = validations ∧ result.success =
      (results.success && validations.all ValidationDetail.passed && exitAccepted exitCode) := by
  unfold createPhaseResult at h
  simp only [bind, Except.bind] at h
  split at h
  · cases h
  · cases h
    exact ⟨rfl, rfl⟩

end IsvValidation.Orchestrator
