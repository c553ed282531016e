import Mathlib.Data.List.MinMax
import IsvValidation.Host.Runtime

/-!
# Validation entries

States and reasons of the report, the lifecycle record of one validation, and the parser which
turns the `tests.validations` mapping into an ordered list of entries. Malformed items become
entries that later resolve to an error, so that every declared item keeps its place.
-/

namespace IsvValidation.Resolution

open Config Host

/-- Terminal state of a validation in the report. -/
inductive State where
  | passed
  | failed
  | skipped
  | error
  deriving DecidableEq

/-- Why a skipped validation did not run. -/
inductive SkipReason where
  | excluded
  | phaseNotRequested
  | runtimeSkip
  | stepNoOutput
  | stepNotConfigured
  | stepSkipped
  | capabilityRequirement
  deriving DecidableEq

/-- Why an error validation could not be processed or executed. -/
inductive ErrorReason where
  | invalidConfig
  | runtimeException
  | templateRenderFailed
  deriving DecidableEq

def SkipReason.value : SkipReason → String
  | excluded => "test_excluded"
  | phaseNotRequested => "phase_not_requested"
  | runtimeSkip => "runtime_skip"
  | stepNoOutput => "step_no_output"
  | stepNotConfigured => "step_not_configured"
  | stepSkipped => "step_skipped"
  | capabilityRequirement => "capability_requirement"

def ErrorReason.value : ErrorReason → String
  | invalidConfig => "invalid_config"
  | runtimeException => "runtime_exception"
  | templateRenderFailed => "template_render_failed"

/-- A validation declared in configuration before resolution. -/
structure ValidationEntry where
  name : String
  category : String
  paramsTemplate : Value
  step : Option String := none
  phase : Option String := none
  labels : List String := []
  requires : List String := []

/-- Aggregate counts for the subtests reported by one validation. -/
structure SubtestSummary where
  passed : Int := 0
  failed : Int := 0
  skipped : Int := 0
  deriving DecidableEq

/-- Lifecycle record for a single validation entry. -/
structure ResolvedEntry where
  entry : ValidationEntry
  renderedParams : Option Items := none
  state : Option State := none
  skipReason : Option SkipReason := none
  errorReason : Option ErrorReason := none
  message : String := ""
  subtestSummary : SubtestSummary := {}

namespace ResolvedEntry

/-- Whether the entry is ready for runtime execution. -/
def isReady (record : ResolvedEntry) : Bool :=
  record.state.isNone && record.skipReason.isNone && record.errorReason.isNone

/-- A terminal record: it has a state, and a reason exactly where the state calls for one. -/
structure IsTerminal (record : ResolvedEntry) : Prop where
  state : record.state.isSome
  skipReason : record.skipReason.isSome ↔ record.state = some .skipped
  errorReason : record.errorReason.isSome ↔ record.state = some .error

theorem IsTerminal.not_isReady {record : ResolvedEntry} (h : record.IsTerminal) :
    record.isReady = false := by
  have hstate := h.state
  unfold isReady
  cases hs : record.state with
  | none => simp [hs] at hstate
  | some state => rfl

/-- `_skip`. -/
def skip (entry : ValidationEntry) (reason : SkipReason) (message : String) : ResolvedEntry :=
  { entry, state := some .skipped, skipReason := some reason, message }

/-- `_error`. -/
def error (entry : ValidationEntry) (reason : ErrorReason) (message : String) : ResolvedEntry :=
  { entry, state := some .error, errorReason := some reason, message }

theorem isTerminal_skip (entry : ValidationEntry) (reason : SkipReason) (message : String) :
    (skip entry reason message).IsTerminal := ⟨rfl, by simp [skip], by simp [skip]⟩

theorem isTerminal_error (entry : ValidationEntry) (reason : ErrorReason) (message : String) :
    (error entry reason message).IsTerminal := ⟨rfl, by simp [error], by simp [error]⟩

end ResolvedEntry

/-! ## Class names -/

/-- The configured name itself when it is a key, else the longest key before a `-Variant`. -/
def resolveClassKey (name : String) (keys : List String) : Option String :=
  if name ∈ keys then some name
  else (keys.filter fun key ↦ Text.startsWith name (key ++ "-")).argmax String.length

/-- `is_composite`: the wiring params declare a composite. -/
def isComposite (params : Value) : Bool :=
  match params.get? "compose" with
  | some compose => !compose.isNull
  | none => false

/-- Names of the validation classes which may only be used in composites. -/
def composeOnlyCheckNames (host : Runtime) : List String :=
  (host.classes.filter ValidationClass.composeOnly).map ValidationClass.name

/-- The error of a compose-only check wired under its own name. -/
def composeOnlyError (host : Runtime) (name : String) (params : Value) : Option String :=
  if isComposite params then none
  else if (resolveClassKey name (composeOnlyCheckNames host)).isSome then
    some (s!"'{name}' is compose_only and cannot be wired directly; " ++
      "name the property under test and list it under 'compose:'")
  else none

/-! ## Parsing -/

def adapterHandledCategories : List String := ["reframe"]

/-- One `(name, params, group_step, group_phase)` tuple. -/
structure ParsedItem where
  name : String
  params : Value
  groupStep : Value := .null
  groupPhase : Value := .null

/-- The key which carries the message of a malformed item. -/
def invalidParams (message : String) : Value := .dict [(.str "_invalid_config", .str message)]

def invalidItem (message : String) : ParsedItem := ⟨"<invalid>", invalidParams message, .null, .null⟩

section Parsing

variable (host : Runtime)

/-- The checks of one mapping, each with `params or {}`. -/
def expandChecks (checks : Items) (groupStep groupPhase : Value) : List ParsedItem :=
  checks.map fun check ↦ ⟨host.strOf (.scalar check.1), check.2.orEmpty, groupStep, groupPhase⟩

/-- `_expand_check_list`. -/
def expandCheckList (items : List Value) (groupStep groupPhase : Value) (invalidMessage : String) :
    List ParsedItem :=
  items.flatMap fun item ↦
    match item with
    | .dict checks => expandChecks host checks groupStep groupPhase
    | _ => [invalidItem invalidMessage]

/-- `_iter_validation_items`. -/
def iterValidationItems (category : String) (config : Value) : List ParsedItem :=
  match config with
  | .dict items =>
    match config.get? "checks" with
    | none => expandChecks host items .null .null
    | some (.dict checks) =>
      expandChecks host checks ((config.get? "step").getD .null) ((config.get? "phase").getD .null)
    | some (.list checks) =>
      expandCheckList host checks ((config.get? "step").getD .null)
        ((config.get? "phase").getD .null) s!"each item in category '{category}.checks' must be a mapping"
    | some _ => [invalidItem s!"checks for category '{category}' must be a mapping or list"]
  | .list items =>
    expandCheckList host items .null .null s!"each item in category '{category}' must be a mapping"
  | _ => [invalidItem s!"category '{category}' validations must be a mapping or list"]

/-- `_wiring_labels`: the distinct non-empty strings of `labels`. -/
def wiringLabels (params : Value) : List String :=
  match params.get? "labels" with
  | some (.scalar (.str label)) => collect [.str label]
  | some (.list labels) => collect labels
  | _ => []
where
  collect (labels : List Value) : List String :=
    labels.foldl (fun found label ↦
      match label.str? with
      | some text => if text != "" && !found.contains text then found ++ [text] else found
      | none => found) []

/-- `_wiring_requires`. -/
def wiringRequires (params : Value) : List String :=
  match params.get? "requires" with
  | some (.list items) => items.filterMap Value.str?
  | _ => []

/-- `_invalid_entry`. -/
def invalidEntry (name category message : String) : ValidationEntry :=
  { name, category, paramsTemplate := invalidParams message }

/-- The group's value where it is given, else the check's own. -/
def ownOrGroup (group : Value) (params : Value) (key : String) : Option String :=
  (if group.isNull then (params.get? key).getD .null else group).str?

/-- The entry of one parsed item. -/
def entryOfItem (category : String) (item : ParsedItem) : ValidationEntry :=
  match composeOnlyError host item.name item.params with
  | some message => invalidEntry item.name category message
  | none =>
    { name := item.name
      category
      paramsTemplate := item.params
      step := ownOrGroup item.groupStep item.params "step"
      phase := ownOrGroup item.groupPhase item.params "phase"
      labels := wiringLabels item.params
      requires := wiringRequires item.params }

/-- Parse raw validation config into ordered validation entries. -/
def parseValidations (rawConfig : Items) : List ValidationEntry :=
  rawConfig.flatMap fun (category, config) ↦
    match category with
    | .str category =>
      if category ∈ adapterHandledCategories then []
      else (iterValidationItems host category config).map (entryOfItem host category)
    | other =>
      [invalidEntry (host.strOf (.scalar other)) "invalid" "validation category must be a string"]

end Parsing

/-- The phase a validation entry belongs to. -/
def getEntryPhase (entry : ValidationEntry) (stepPhases : String → Option String) : String :=
  match entry.phase.filter (· != ""), entry.step.filter (· != "") with
  | some phase, _ => phase
  | none, some step => (stepPhases step).getD "test"
  | none, none => "test"

/-! ## What the schema accepts -/

/-- A mapping with string keys only. -/
def strKeyed (items : Items) : Bool :=
  items.all fun item ↦ match item.1 with
    | .str _ => true
    | _ => false

/-- `list[dict[str, Any]] | dict[str, Any]`. -/
def acceptedCategory : Value → Bool
  | .dict items => strKeyed items
  | .list items => items.all fun item ↦ match item with
    | .dict checks => strKeyed checks
    | _ => false
  | _ => false

/-- `validate_suite_shape` on one parsed entry. -/
def acceptedEntry (entry : ValidationEntry) : Bool :=
  entry.paramsTemplate.isDict && (entry.paramsTemplate.get? "platforms").isNone &&
    match entry.paramsTemplate.get? "requires" with
    | none => true
    | some requires => requires.isNull || (requiresError requires).isNone

/-- The field types and validators of the `tests:` section. -/
def acceptedTests (host : Runtime) (tests : ValidationConfig) : Bool :=
  tests.capability.all (declarableCapabilities.contains ·) &&
    strKeyed tests.settings && strKeyed tests.exclude && strKeyed tests.validations &&
    tests.validations.all (fun item ↦ acceptedCategory item.2) &&
    (parseValidations host tests.validations).all acceptedEntry

/-- The configurations which pass the pydantic models. -/
def accepted (host : Runtime) (config : RunConfig) : Bool :=
  strKeyed config.context && config.tests.all (acceptedTests host) &&
    config.commands.all fun (_, commands) ↦
      commands.steps.all fun step ↦ (requiresError (.list (step.requires.map Value.str))).isNone

/-- The single capability satisfies a check's requirements. -/
def requirementsSatisfied (requires : List String) (capability : String) : Bool :=
  requires.isEmpty || requires.contains capability

end IsvValidation.Resolution
