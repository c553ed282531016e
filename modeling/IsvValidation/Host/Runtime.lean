import IsvValidation.Config.Schema
import IsvValidation.Host.Text

/-!
# What surrounds the orchestrator

The parts of the machine and of other packages which a run consults, as functions that any run may
choose freely: template rendering, the file system, the processes which steps launch, the schema
registry and the discovered validation classes. Functions of the outside world which may answer
differently from call to call take the number of the step attempt they serve.
-/

namespace IsvValidation.Host

open Config

/-- The two Jinja environments: the executor's, in which a missing value renders as nothing, and
the resolver's, in which it raises. Both take a template and the variables. -/
structure Jinja where
  renderLenient : String → Items → Except String String
  renderStrict : String → Items → Except String String

/-- The file system as script lookup sees it. -/
structure ScriptFiles where
  parents : String → Except PyError (List String)
  currentDir : Except PyError String
  exists? : String → String → Except PyError Bool
  resolve : String → String → Except PyError String

/-- What `run_command_process` is called with. -/
structure Launch where
  argv : List String
  cwd : String
  env : List (String × String)
  timeout : Option Int
  deriving DecidableEq

/-- How `run_command_process` ended. -/
inductive ProcessOutcome where
  | completed (exitCode : Int) (stdout stderr : String)
  | timedOut (stdout stderr : String)
  | notFound
  | failed (message : String)
  | interrupted

/-- What `json.loads` made of the output of a step. -/
inductive JsonText where
  | value (json : Json)
  | undecodable
  | failed (message : String)

/-- The answer of `jsonschema.validate` for one schema. -/
inductive SchemaVerdict where
  | valid
  | invalid (message : String)
  | failed (message : String)
  deriving DecidableEq

/-- The registries of `output_schemas`: step names to schema names, and schemas by name. -/
structure OutputSchemas where
  stepMapping : List (String × Option String)
  schemas : List (String × (Json → SchemaVerdict))

namespace OutputSchemas

/-- An exact match wins, then the first key contained in the step name, then `generic`. -/
def getSchemaForStep (registry : OutputSchemas) (stepName : String) : Option String :=
  match registry.stepMapping.lookup stepName with
  | some schema => schema
  | none =>
    match registry.stepMapping.find? fun entry ↦ Text.contains stepName entry.1 with
    | some entry => entry.2
    | none => some "generic"

/-- Validity and messages, or the text of the exception. -/
def validateOutput (registry : OutputSchemas) (output : Json) (schemaName : String) :
    Except String (Bool × List String) :=
  match registry.schemas.lookup schemaName with
  | none => .error s!"Unknown schema: {schemaName}"
  | some schema =>
    match schema output with
    | .valid => .ok (true, [])
    | .invalid message => .ok (false, [message])
    | .failed message => .error message

end OutputSchemas

/-- A discovered validation class. -/
structure ValidationClass where
  name : String
  composeOnly : Bool := false
  deriving DecidableEq

/-- Everything a run consults. `str` is Python's text of a value which is not a string, `quoted`
its `repr` of a list of names, `templateEnv` the environment without its secrets, and `builtin` the
time stamps of the run. -/
structure Runtime where
  unicode : Unicode
  jinja : Jinja
  str : Value → String
  quoted : List String → String
  loads : String → JsonText
  executable : String
  workingDir : String
  environ : Nat → List (String × String)
  templateEnv : Items
  builtin : Items
  scripts : Nat → ScriptFiles
  process : Nat → Launch → ProcessOutcome
  schemas : OutputSchemas
  classes : List ValidationClass
  redactText : String → String
  sensitiveKey : String → Bool

namespace Runtime

variable (host : Runtime)

/-- Python's `str(value)`. -/
def strOf (value : Value) : String := (value.str?).getD (host.str value)

mutual

/-- `redact_dict`. -/
def redactDict : Json → Json
  | .arr items => .arr (redactList items)
  | .obj fields => .obj (redactFields fields)
  | json => json

def redactList : List Json → List Json
  | [] => []
  | json :: rest => redactDict json :: redactList rest

def redactFields : List (String × Json) → List (String × Json)
  | [] => []
  | (key, json) :: rest =>
    (key, if host.sensitiveKey key then .str "***" else redactDict json) :: redactFields rest

end

/-- A machine with ASCII text and without templates, on which every process succeeds and prints
nothing. Concrete runs take place on variants of it. -/
def plain : Runtime :=
  { unicode :=
      { lower := fun text ↦ .ofList (text.toList.map Char.toLower)
        isSpace := Char.isWhitespace
        isAlnum := Char.isAlphanum }
    jinja := { renderLenient := fun text _ ↦ .ok text, renderStrict := fun text _ ↦ .ok text }
    str := fun _ ↦ ""
    quoted := fun names ↦ ", ".intercalate names
    loads := fun _ ↦ .undecodable
    executable := "/usr/bin/python3"
    workingDir := "/work"
    environ := fun _ ↦ []
    templateEnv := []
    builtin := []
    scripts := fun _ ↦
      { parents := fun _ ↦ .ok [], currentDir := .ok "/work", exists? := fun _ _ ↦ .ok true
        resolve := fun _ path ↦ .ok path }
    process := fun _ _ ↦ .completed 0 "" ""
    schemas := { stepMapping := [], schemas := [] }
    classes := []
    redactText := id
    sensitiveKey := fun _ ↦ false }

end Runtime

end IsvValidation.Host
