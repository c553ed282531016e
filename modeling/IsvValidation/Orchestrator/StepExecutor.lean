import IsvValidation.Library.Loop
import IsvValidation.Library.Sequence
import IsvValidation.Orchestrator.Context

/-!
# Step execution

Steps of a phase run one after the other. A step renders its arguments, splits its command, finds
its script, renders its environment and launches a process whose output is parsed and validated.
What goes wrong inside the executor's `try` block becomes a failed result; splitting the command,
looking up the script, an interrupt and storing an output in a context without a mapping of step
outputs happen outside of it and raise.
-/

namespace IsvValidation.Orchestrator

open Config Host Library

/-! ## Command line -/

section Arguments

variable (host : Runtime)

/-- `_STEP_PATH_RE.finditer`: the dotted paths after `steps.`; `skip` characters belong to the
match before. -/
def stepPaths (skip : Nat) : List Char → List String
  | [] => []
  | c :: rest =>
    match skip with
    | skip + 1 => stepPaths skip rest
    | 0 =>
      let path := (((c :: rest).drop 6).takeWhile fun d ↦ host.unicode.isWord d || d == '.')
      if "steps.".toList.isPrefixOf (c :: rest) && !path.isEmpty then
        .ofList path :: stepPaths (path.length + 5) rest
      else stepPaths 0 rest

/-- Whether a path is unresolved: a segment is missing, or the value is `None` or empty. -/
def unresolved (steps : Value) (path : String) : Bool :=
  match (Text.split '.' path).foldl (fun node part ↦ node.bind (·.get? part)) (some steps) with
  | none => true
  | some value => value.isNull || value.str? == some ""

/-- `_find_missing_step_path`. -/
def findMissingStepPath (arg : String) (steps : Value) : Option String :=
  (stepPaths host 0 arg.toList).find? (unresolved steps)

/-- One argument: the text to pass, nothing, or the path which is missing. -/
def renderArg (context : Context) (arg : String) : Except String (Option String) :=
  if Text.isTemplate arg then
    match host.jinja.renderLenient arg context.data with
    | .error _ => .ok (some arg)
    | .ok result =>
      if host.unicode.strip result ≠ "" then .ok (some result)
      else if Text.contains arg "default(" then .ok none
      else
        match findMissingStepPath host arg context.steps with
        | some missing => .error missing
        | none => .ok none
  else .ok (some arg)

/-- `_render_args`; an error is the missing path of `MissingStepRefError`. -/
def renderArgs (context : Context) (args : List String) : Except String (List String) := do
  let rendered ← args.mapM (renderArg host context)
  return rendered.filterMap id

/-- The words of a command, with any Python interpreter replaced by the current one. -/
def commandWords (command : String) : Except PyError (List String) := do
  let parts ← Shlex.split command
  if Text.startsWith command "uv run python" then
    return match parts with
      | _ :: _ :: _ :: script :: _ => [host.executable, script]
      | _ => [host.executable]
  else if Text.startsWith command "python3 " || Text.startsWith command "python " then
    return host.executable :: parts.drop 1
  else return parts

end Arguments

/-- The position of the script among the words after the interpreter. -/
def scriptIndex (index : Nat) : List String → Option Nat
  | [] => none
  | [option] =>
    if Text.startsWith option "-" then none else some index
  | option :: value :: rest =>
    if Text.startsWith option "-" then
      if option = "-m" || option = "-c" then none
      else if option = "-W" || option = "-X" then scriptIndex (index + 2) rest
      else scriptIndex (index + 1) (value :: rest)
    else some index

/-- The first root under which a path exists. -/
def findRoot (files : ScriptFiles) (path : String) : List String → Except PyError (Option String)
  | [] => .ok none
  | root :: rest => do
    if ← files.exists? root path then return some root else findRoot files path rest

/-- `_resolve_python_script_path`. -/
def resolvePythonScriptPath (files : ScriptFiles) (parts : List String) (cwd : String) :
    Except PyError (List String) :=
  match parts with
  | interpreter :: second :: rest =>
    if !Text.startsWith (Text.pathName interpreter) "python" then .ok parts
    else
      match scriptIndex 1 (second :: rest) with
      | none => .ok parts
      | some index => do
        let script := parts.getD index ""
        if Text.isAbsolute script then return parts
        if ← files.exists? cwd script then return parts
        let parents ← files.parents cwd
        let current ← files.currentDir
        match ← findRoot files script (parents ++ [current]) with
        | none => return parts
        | some root =>
          let resolved ← files.resolve root script
          return parts.set index resolved
  | _ => .ok parts

/-! ## One step -/

/-- Result of executing a single step. `output` is `null` when there is none. -/
structure StepResult where
  name : String
  success : Bool
  exitCode : Int
  stdout : String := ""
  stderr : String := ""
  output : Json := .null
  schemaName : Option String := none
  schemaValid : Bool := true
  schemaErrors : List String := []
  error : Option Json := none

namespace StepResult

/-- The placeholder of a step which is switched off. -/
def skipped (step : StepConfig) : StepResult :=
  { name := step.name, success := true, exitCode := 0, error := some (.str "Step skipped") }

/-- A step which failed without a completed process. -/
def failure (step : StepConfig) (error : String) : StepResult :=
  { name := step.name, success := false, exitCode := -1, error := some (.str error) }

end StepResult

section Step

variable (host : Runtime)

def stderrExcerptHeadLines : Nat := 20
def stderrExcerptTailLines : Nat := 80

/-- `_format_stderr_excerpt`. -/
def formatStderrExcerpt (stderr : String) : String :=
  let redacted := host.redactText (host.unicode.strip stderr)
  if redacted = "" then ""
  else
    let lines := Text.splitlines redacted
    if lines.length ≤ stderrExcerptHeadLines + stderrExcerptTailLines then redacted
    else
      let head := lines.take stderrExcerptHeadLines
      let tail := lines.drop (lines.length - stderrExcerptTailLines)
      let omitted := lines.length - stderrExcerptHeadLines - stderrExcerptTailLines
      let marker := s!"... stderr truncated; omitted {omitted} lines " ++
        s!"(showing first {stderrExcerptHeadLines} and last {stderrExcerptTailLines}) ..."
      "\n".intercalate (head ++ [marker] ++ tail)

/-- The error of a command which returned a non-zero exit code; `.error` is an exception inside
the `try` block. -/
def exitError (output : Json) (exitCode : Int) (stderr : String) : Except PyError Json := do
  let reported ← if output.truthy then output.get "error" else pure none
  match reported.filter Json.truthy with
  | some message =>
    let kind := ((← output.get "error_type").filter Json.truthy).map fun kind ↦
      host.strOf kind.toValue
    return match kind with
      | some kind =>
        let text := host.strOf message.toValue
        .str s!"[{kind}] {text}"
      | none => message
  | none =>
    if stderr = "" then return .str s!"Command exited with code {exitCode}"
    else
      let excerpt := formatStderrExcerpt host stderr
      return .str s!"Command exited with code {exitCode}: {excerpt}"

/-- The text `str(e)` of an exception caught in the executor. -/
def errorText : PyError → String
  | .valueError message => message
  | .typeError message => message
  | .keyError message => s!"'{message}'"
  | .attributeError message => message
  | .osError message => message
  | .keyboardInterrupt => ""
  | .other _ message => message

/-- `_validate_schema`; `.error` is an exception inside the `try` block. -/
def validateSchema (step : StepConfig) (result : StepResult) : Except String StepResult :=
  match (step.outputSchema.filter (· ≠ "")).or (host.schemas.getSchemaForStep step.name) with
  | none => .ok { result with schemaName := none }
  | some schemaName => do
    let (valid, errors) ← host.schemas.validateOutput result.output schemaName
    return { result with
      schemaName := some schemaName
      schemaValid := valid
      schemaErrors := errors
      success := result.success && valid }

/-- The result of a completed process: output parsed, error or schema verdict added. -/
def finishStep (step : StepConfig) (exitCode : Int) (stdout stderr : String) :
    Except String StepResult := do
  let result : StepResult :=
    { name := step.name, success := exitCode == 0, exitCode, stdout, stderr }
  let text := host.unicode.strip stdout
  let output ← if text = "" then pure Json.null
    else match host.loads text with
      | .value json => pure json
      | .undecodable => pure Json.null
      | .failed message => throw message
  let result := { result with output }
  if exitCode ≠ 0 then
    match exitError host output exitCode stderr with
    | .error raised => throw (errorText raised)
    | .ok error => return { result with error := some error }
  else if output.truthy then validateSchema host step result
  else return result

/-- What one call of `_execute_step` did: the process it launched, and its result or the
exception which left it. -/
structure StepRun where
  launch : Option Launch := none
  outcome : Except PyError StepResult

/-- From a rendered command to the result of its process. -/
def launchStep (tick : Nat) (context : Context) (step : StepConfig) (cwd : String)
    (argv : List String) : StepRun :=
  match step.env.mapM fun item ↦
      (Context.renderString host context.data item.2).map fun value ↦ (item.1, value) with
  | .error message => ⟨none, .ok (.failure step s!"Failed to render env: {message}")⟩
  | .ok overrides =>
    let environ := host.environ tick
    let env := (environ.filter fun item ↦ !(overrides.map Prod.fst).contains item.1) ++ overrides
    let launch : Launch := { argv, cwd, env, timeout := step.timeout }
    ⟨some launch,
      match host.process tick launch with
      | .completed exitCode stdout stderr =>
        match finishStep host step exitCode stdout stderr with
        | .ok result => .ok result
        | .error message => .ok (.failure step s!"Command execution failed: {message}")
      | .timedOut stdout stderr =>
        let seconds := match step.timeout with
          | some timeout => toString timeout
          | none => "None"
        .ok { StepResult.failure step s!"Command timed out after {seconds} seconds" with
          stdout, stderr }
      | .notFound => .ok (.failure step s!"Command not found: {step.command}")
      | .failed message => .ok (.failure step s!"Command execution failed: {message}")
      | .interrupted => .error .keyboardInterrupt⟩

/-- `_execute_step`. -/
def executeStep (tick : Nat) (context : Context) (step : StepConfig) : StepRun :=
  match renderArgs host context step.args with
  | .error missing => ⟨none, .ok (.failure step s!"Skipped: missing step reference steps.{missing}")⟩
  | .ok args =>
    match commandWords host step.command with
    | .error raised => ⟨none, .error raised⟩
    | .ok words =>
      let cwd := (step.workingDir.filter (· ≠ "")).getD host.workingDir
      match resolvePythonScriptPath (host.scripts tick) (words ++ args) cwd with
      | .error raised => ⟨none, .error raised⟩
      | .ok argv => launchStep host tick context step cwd argv

/-! ## All steps of a phase -/

/-- Results of executing all steps. -/
structure StepResults where
  success : Bool := true
  steps : List StepResult := []

def StepResults.addStep (results : StepResults) (result : StepResult) : StepResults :=
  { success := results.success && result.success, steps := results.steps ++ [result] }

/-- One call of `_execute_step` for the step at a position of the configuration; no result means
that an exception left it. -/
structure Attempt where
  index : ℕ
  launch : Option Launch
  result : Option StepResult

/-- The step ran to a result and failed. -/
def Attempt.failed (attempt : Attempt) : Bool := attempt.result.any fun result ↦ !result.success

/-- What the loop over the steps changes. -/
structure ExecState where
  context : Context
  tick : ℕ
  attempts : List Attempt := []
  results : StepResults := {}

/-- `if step_result.output: context.set_step_output(...)`. -/
def storeOutput (context : Context) (step : StepConfig) (result : StepResult) :
    Except PyError Context :=
  if result.output.truthy then context.setStepOutput step.name result.output else .ok context

/-- One iteration of the loop of `execute_steps`, on a step with its position. -/
def stepBody (bestEffort : Bool) (item : ℕ × StepConfig) (state : ExecState) :
    Loop.Signal PyError ExecState :=
  let (index, step) := item
  if step.skip then
    .next { state with results := state.results.addStep (.skipped step) }
  else
    let run := executeStep host state.tick state.context step
    match run.outcome with
    | .error raised =>
      .raise raised { state with
        tick := state.tick + 1
        attempts := state.attempts ++ [⟨index, run.launch, none⟩] }
    | .ok result =>
      let after := { state with
        tick := state.tick + 1
        attempts := state.attempts ++ [⟨index, run.launch, some result⟩]
        results := state.results.addStep result }
      match storeOutput state.context step result with
      | .error raised => .raise raised after
      | .ok context =>
        if !result.success && !step.continueOnFailure && !bestEffort then
          .halt { after with context }
        else .next { after with context }

/-- `execute_steps`. -/
def executeSteps (steps : List (ℕ × StepConfig)) (context : Context) (tick : ℕ)
    (bestEffort : Bool) : Loop.Signal PyError ExecState :=
  Loop.run (stepBody host bestEffort) steps { context, tick }

/-! ## Which steps are attempted -/

variable {host}

/-- The steps which are not switched off. -/
def liveSteps (steps : List (ℕ × StepConfig)) : List (ℕ × StepConfig) :=
  steps.filter fun item ↦ !item.2.skip

/-- A step failed in these attempts and nothing lets the phase go on after it. -/
def stopsPhase (bestEffort : Bool) (attempts : List Attempt) (item : ℕ × StepConfig) : Bool :=
  !bestEffort && !item.2.continueOnFailure &&
    attempts.any fun attempt ↦ decide (attempt.index = item.1) && attempt.failed

/-- The attempts are, in order, the live steps up to and including the first one which stops the
phase. -/
def AttemptsExactly (bestEffort : Bool) (steps : List (ℕ × StepConfig)) (attempts : List Attempt) :
    Prop :=
  attempts.map Attempt.index =
    (takeThrough (stopsPhase bestEffort attempts) (liveSteps steps)).map Prod.fst

/-- What holds between two iterations: the live steps done so far were attempted, none of them
stopped the phase, and the phase has failed exactly if one of them did. -/
structure StepsDone (bestEffort : Bool) (done : List (ℕ × StepConfig)) (state : ExecState) :
    Prop where
  attempted : state.attempts.map Attempt.index = (liveSteps done).map Prod.fst
  quiet : ∀ item ∈ liveSteps done, stopsPhase bestEffort state.attempts item = false
  success : state.results.success = !state.attempts.any Attempt.failed
  finished : ∀ attempt ∈ state.attempts, attempt.result.isSome

theorem stopsPhase_append {bestEffort : Bool} {attempts : List Attempt} {attempt : Attempt}
    {item : ℕ × StepConfig} (hne : attempt.index ≠ item.1) :
    stopsPhase bestEffort (attempts ++ [attempt]) item = stopsPhase bestEffort attempts item := by
  simp [stopsPhase, hne]

theorem stopsPhase_last {bestEffort : Bool} {attempts : List Attempt} {attempt : Attempt}
    {item : ℕ × StepConfig} (hindex : attempt.index = item.1)
    (hfresh : ∀ other ∈ attempts, other.index ≠ item.1) :
    stopsPhase bestEffort (attempts ++ [attempt]) item =
      (!bestEffort && !item.2.continueOnFailure && attempt.failed) := by
  have hnone : (attempts.any fun other ↦ decide (other.index = item.1) && other.failed) = false := by
    rw [List.any_eq_false]
    intro other hother
    simp [hfresh other hother]
  simp [stopsPhase, List.any_append, hnone, hindex]

/-- How the loop leaves the steps of a phase when it does not raise. -/
structure StepsRan (bestEffort : Bool) (steps : List (ℕ × StepConfig)) (state : ExecState) :
    Prop where
  attempts : AttemptsExactly bestEffort steps state.attempts
  success : state.results.success = !state.attempts.any Attempt.failed
  finished : ∀ attempt ∈ state.attempts, attempt.result.isSome

/-- How the loop over the steps may end; an exception leaves attempts at the first live steps. -/
def StepsEnd (bestEffort : Bool) (steps : List (ℕ × StepConfig)) :
    Loop.Signal PyError ExecState → Prop
  | .next state => StepsRan bestEffort steps state
  | .halt state => StepsRan bestEffort steps state
  | .raise _ state =>
    (state.attempts.map Attempt.index).IsPrefix ((liveSteps steps).map Prod.fst)

theorem liveSteps_append (done : List (ℕ × StepConfig)) (item : ℕ × StepConfig) :
    liveSteps (done ++ [item]) = liveSteps done ++ if item.2.skip then [] else [item] := by
  unfold liveSteps
  rw [List.filter_append]
  cases h : item.2.skip <;> simp [h]

/-- An attempt at a step which was not attempted before leaves the verdict on the earlier steps. -/
theorem StepsDone.attempt {bestEffort : Bool} {done : List (ℕ × StepConfig)} {state : ExecState}
    (h : StepsDone bestEffort done state) {item : ℕ × StepConfig}
    (hfresh : item.1 ∉ done.map Prod.fst) (launch : Option Launch) (result : Option StepResult) :
    let attempts := state.attempts ++ [⟨item.1, launch, result⟩]
    (∀ other ∈ liveSteps done, stopsPhase bestEffort attempts other = false) ∧
      stopsPhase bestEffort attempts item =
        (!bestEffort && !item.2.continueOnFailure && (⟨item.1, launch, result⟩ : Attempt).failed) := by
  have hlive : ∀ other ∈ liveSteps done, item.1 ≠ other.1 := fun other hother heq ↦
    hfresh (List.mem_map.mpr ⟨other, (List.mem_filter.mp hother).1, heq.symm⟩)
  refine ⟨fun other hother ↦ ?_, stopsPhase_last rfl fun attempt hattempt heq ↦ ?_⟩
  · rw [stopsPhase_append (hlive other hother)]
    exact h.quiet other hother
  · have hmem : attempt.index ∈ (liveSteps done).map Prod.fst :=
      h.attempted ▸ List.mem_map_of_mem hattempt
    obtain ⟨other, hother, hsame⟩ := List.mem_map.mp hmem
    exact hlive other hother (heq ▸ hsame.symm)

variable (host) in
theorem stepBody_skip {item : ℕ × StepConfig} (hskip : item.2.skip = true) (bestEffort : Bool)
    (state : ExecState) :
    stepBody host bestEffort item state =
      .next { state with results := state.results.addStep (.skipped item.2) } := by
  simp [stepBody, hskip]

variable (host) in
/-- A live step is attempted once, and then the loop raises, stops or goes on. -/
theorem stepBody_live {item : ℕ × StepConfig} (hskip : item.2.skip = false) (bestEffort : Bool)
    (state : ExecState) :
    ∃ launch result after, after.attempts = state.attempts ++ [⟨item.1, launch, result⟩] ∧
      ((∃ raised, stepBody host bestEffort item state = .raise raised after) ∨
        ∃ found, result = some found ∧ after.results = state.results.addStep found ∧
          stepBody host bestEffort item state =
            if !found.success && !item.2.continueOnFailure && !bestEffort then .halt after
            else .next after) := by
  unfold stepBody
  simp only [hskip, Bool.false_eq_true, if_false]
  cases houtcome : (executeStep host state.tick state.context item.2).outcome with
  | error raised => exact ⟨_, none, _, rfl, Or.inl ⟨raised, rfl⟩⟩
  | ok found =>
    simp only
    cases hstore : storeOutput state.context item.2 found with
    | error raised => exact ⟨_, some found, _, rfl, Or.inl ⟨raised, rfl⟩⟩
    | ok context => exact ⟨_, some found, _, rfl, Or.inr ⟨found, rfl, rfl, rfl⟩⟩

/-- The executor attempts exactly the live steps up to the first one which stops the phase; where
an exception ends it, the attempts are still the first live steps. -/
theorem executeSteps_spec {steps : List (ℕ × StepConfig)} (hnodup : (steps.map Prod.fst).Nodup)
    (context : Context) (tick : ℕ) (bestEffort : Bool) :
    StepsEnd bestEffort steps (executeSteps host steps context tick bestEffort) := by
  refine Loop.run_rule (I := StepsDone bestEffort) ?_ ?_ ?_
  · exact ⟨rfl, fun item hitem ↦ absurd hitem List.not_mem_nil, rfl,
      fun attempt hattempt ↦ absurd hattempt List.not_mem_nil⟩
  · intro done item rest state hsteps hdone
    have hfresh : item.1 ∉ done.map Prod.fst := by
      intro hmem
      rw [hsteps, List.map_append, List.map_cons, List.nodup_append] at hnodup
      exact hnodup.2.2 _ hmem _ (List.mem_cons_self ..) rfl
    cases hskip : item.2.skip with
    | true =>
      have hlive : liveSteps (done ++ [item]) = liveSteps done := by
        rw [liveSteps_append, hskip, if_pos rfl, List.append_nil]
      rw [stepBody_skip host hskip]
      refine ⟨hlive ▸ hdone.attempted, hlive ▸ hdone.quiet, ?_, hdone.finished⟩
      simp only [StepResults.addStep, StepResult.skipped, Bool.and_true]
      exact hdone.success
    | false =>
      have hlive : liveSteps (done ++ [item]) = liveSteps done ++ [item] := by
        rw [liveSteps_append, hskip, if_neg Bool.false_ne_true]
      have hall : liveSteps steps = liveSteps (done ++ [item]) ++ liveSteps rest := by
        rw [hsteps, List.append_cons, liveSteps, List.filter_append]
        rfl
      obtain ⟨launch, result, after, hattempts, hbody⟩ := stepBody_live host hskip bestEffort state
      have hattempted : after.attempts.map Attempt.index =
          (liveSteps (done ++ [item])).map Prod.fst := by
        rw [hattempts, hlive, List.map_append, List.map_append, hdone.attempted]
        rfl
      obtain ⟨hquiet, hlast⟩ := hdone.attempt hfresh launch result
      rw [← hattempts] at hquiet hlast
      rcases hbody with ⟨raised, hbody⟩ | ⟨found, rfl, hresults, hbody⟩
      · rw [hbody]
        change (after.attempts.map Attempt.index).IsPrefix _
        rw [hattempted, hall, List.map_append]
        exact List.prefix_append ..
      · have hsuccess : after.results.success = !after.attempts.any Attempt.failed := by
          rw [hresults, hattempts]
          simp [StepResults.addStep, hdone.success, Attempt.failed]
        have hfinished : ∀ attempt ∈ after.attempts, attempt.result.isSome := by
          rw [hattempts]
          intro attempt hattempt
          rcases List.mem_append.mp hattempt with hold | hnew
          · exact hdone.finished attempt hold
          · rw [List.mem_singleton.mp hnew]
            rfl
        have hstops : stopsPhase bestEffort after.attempts item =
            (!found.success && !item.2.continueOnFailure && !bestEffort) := by
          rw [hlast]
          simp only [Attempt.failed, Option.any_some]
          ac_rfl
        rw [hbody]
        cases hstop : (!found.success && !item.2.continueOnFailure && !bestEffort) with
        | true =>
          rw [if_pos rfl]
          refine ⟨?_, hsuccess, hfinished⟩
          unfold AttemptsExactly
          rw [hattempted, hall, hlive, List.append_assoc, List.singleton_append,
            takeThrough_append_cons _ hquiet (hstops.trans hstop)]
        | false =>
          rw [if_neg Bool.false_ne_true]
          refine ⟨hattempted, ?_, hsuccess, hfinished⟩
          intro other hother
          rw [hlive, List.mem_append, List.mem_singleton] at hother
          rcases hother with hold | rfl
          · exact hquiet other hold
          · exact hstops.trans hstop
  · intro state hdone
    refine ⟨?_, hdone.success, hdone.finished⟩
    unfold AttemptsExactly
    rw [takeThrough_eq_self hdone.quiet]
    exact hdone.attempted

end Step

end IsvValidation.Orchestrator
