import IsvValidation.Host.Runtime
import IsvValidation.Library.OrderedMap

/-!
# The templating context

The variables of a run in their layers, and the phase of every step. Settings of the test
configuration are written over the layers before them, so that a setting may take the place of any
of them, the mapping of step outputs included.
-/

namespace IsvValidation.Orchestrator

open Config Host Library

/-- The full context dictionary and the recorded step phases. -/
structure Context where
  data : Items
  stepPhases : OrderedMap String String := .empty

namespace Context

/-- `render_string` and the rendering of settings: strings without both markers stay as they are. -/
def renderString (host : Runtime) (data : Items) (text : String) : Except String String :=
  if Text.isTemplate text then host.jinja.renderLenient text data else .ok text

/-- One setting, rendered where it is a template that renders. -/
def addSetting (host : Runtime) (data : Items) (setting : Scalar × Value) : Items :=
  match setting.2 with
  | .scalar (.str text) =>
    match renderString host data text with
    | .ok rendered => Value.assignKey setting.1 (.str rendered) data
    | .error _ => Value.assignKey setting.1 (.str text) data
  | value => Value.assignKey setting.1 value data

/-- `Context(config)`. -/
def ofConfig (host : Runtime) (config : RunConfig) : Context :=
  let user := if config.context.isEmpty then [] else [(.str "context", .dict config.context)]
  let lab := (config.lab.map fun lab ↦ (Scalar.str "lab", Value.dict lab)).toList
  let layers := user ++ lab ++
    [(.str "builtin", .dict host.builtin), (.str "inventory", .dict []), (.str "steps", .dict []),
      (.str "env", .dict host.templateEnv)]
  { data := (config.tests.map ValidationConfig.settings |>.getD []).foldl (addSetting host) layers }

/-- `data.get("steps", {})`. -/
def steps (context : Context) : Value := (context.data.lookup (.str "steps")).getD (.dict [])

def setStepPhase (context : Context) (step phase : String) : Context :=
  { context with stepPhases := context.stepPhases.insert step phase }

/-- `self.data["steps"][step_name] = output`. -/
def setStepOutput (context : Context) (step : String) (output : Json) : Except PyError Context := do
  let steps ← (Value.dict context.data).getItem "steps"
  let steps ← steps.setItem step output.toValue
  return { context with data := Value.assign "steps" steps context.data }

/-- The settings of the configuration as they are during the run: a mapping under `steps` is the
very mapping in which the context collects step outputs. -/
def liveSettings (context : Context) (settings : Items) : Items :=
  settings.map fun item ↦
    if item.1 = .str "steps" ∧ item.2.isDict then (item.1, context.steps) else item

end Context

end IsvValidation.Orchestrator
