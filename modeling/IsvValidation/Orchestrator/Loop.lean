import IsvValidation.Junit.Merge
import IsvValidation.Junit.Stub
import IsvValidation.Orchestrator.Plan
import IsvValidation.Pytest.Bridge

/-!
# The phase loop

One pass over the configured phases. A phase which is requested and not gated runs its steps,
resolves the validations which belong to it, hands the ready ones to a pytest session and settles
them all. Entries which no phase settled are resolved after the loop, and the per-phase JUnit files
are merged. Every phase leaves a log of what it did, also when an exception ends the run in it.
-/

namespace IsvValidation.Orchestrator

open Config Host Junit Library Pytest Resolution

/-- The temporary directory of the per-phase reports and the final report file. `locate` says
which file a path in the directory denotes. -/
structure ReportFiles where
  mkdtemp : Except PyError String
  stat : String → Except PyError Unit
  openWrite : String → Except PyError Unit
  locate : String → String
  writeReport : Except PyError Unit
  redact : XmlText → XmlText

/-- The world around a run: the machine, the pytest sessions in the order they are started, and
the report files. -/
structure World where
  host : Runtime
  session : ℕ → SessionRequest → SessionOutcome
  reports : ReportFiles

/-- What the phase loop reads and never changes. -/
structure RunEnv where
  world : World
  plan : Plan
  tmpdir : Option String

/-! ## What a run leaves behind -/

/-- What one executed phase did: the step attempts, the entries which belonged to it and how they
were decided, the session, its records and the report found at the phase's path, and the terminal
records. -/
structure PhaseLog where
  attempts : List Attempt := []
  indexes : List ℕ := []
  decided : List ResolvedEntry := []
  session : Option (SessionRequest × SessionOutcome) := none
  executed : List ResolvedEntry := []
  document : Option JUnitDoc := none
  records : List ResolvedEntry := []
  success : Bool := true

/-- The positions of the entries which the phase handed to its session. -/
def PhaseLog.handed (log : PhaseLog) : List ℕ :=
  if log.session.isSome then
    ((log.indexes.zip log.decided).filter fun item ↦ item.2.isReady).map Prod.fst
  else []

/-- The exit code of the phase's session, if it returned one. -/
def PhaseLog.exitCode (log : PhaseLog) : Option Int :=
  match log.session with
  | some (_, .returned exitCode _ _) => some exitCode
  | _ => none

/-- The report which the phase's session wrote. -/
def PhaseLog.xml (log : PhaseLog) : Option JUnitDoc :=
  match log.session with
  | some (_, .returned _ _ xml) => xml
  | _ => none

/-- The results which the phase's session captured. -/
def PhaseLog.captured (log : PhaseLog) : List ValidationResult :=
  match log.session with
  | some (_, .returned _ captured _) => captured
  | _ => []

/-- The records decided ready, which go to the session. -/
def PhaseLog.ready (log : PhaseLog) : List ResolvedEntry := log.decided.filter ResolvedEntry.isReady

/-- The records which were terminal before the session. -/
def PhaseLog.preResolved (log : PhaseLog) : List ResolvedEntry :=
  log.decided.filter fun record ↦ !record.isReady

/-- What became of one occurrence of a phase. -/
inductive Visit where
  | notRequested (phase : String)
  | skipped (phase reason : String)
  | executed (phase : String) (log : PhaseLog)

namespace Visit

def phase : Visit → String
  | notRequested phase => phase
  | skipped phase _ => phase
  | executed phase _ => phase

/-- The log of an executed phase. -/
def log? : Visit → Option PhaseLog
  | executed _ log => some log
  | _ => none

def attempts (visit : Visit) : List Attempt := (visit.log?.map PhaseLog.attempts).getD []

/-- The positions of the steps whose command was launched. -/
def launched (visit : Visit) : List ℕ :=
  (visit.attempts.filter fun attempt ↦ attempt.launch.isSome).map Attempt.index

def handed (visit : Visit) : List ℕ := (visit.log?.map PhaseLog.handed).getD []

/-- The exit code of the visit's session, if it had one which returned. -/
def exitCode (visit : Visit) : Option Int := visit.log?.bind PhaseLog.exitCode

/-- The phase ran and did not succeed. -/
def failed (visit : Visit) : Bool := visit.log?.any fun log ↦ !log.success

end Visit

/-- The state of the phase loop. -/
structure LoopState where
  context : Context
  tick : ℕ := 0
  sessions : ℕ := 0
  resolved : OrderedMap ℕ ResolvedEntry := .empty
  phaseResults : List PhaseResult := []
  overallSuccess : Bool := true
  setupStepsRan : Bool := false
  files : OrderedMap String JUnitDoc := .empty
  junitFiles : List String := []
  visits : List Visit := []

/-! ## Resolution inside the loop -/

section Phase

variable (env : RunEnv)

/-- The entries without a record, with their positions. -/
def openEntries (s : LoopState) : List (ℕ × ValidationEntry) :=
  (env.plan.entries.zipIdx.map fun item ↦ (item.2, item.1)).filter fun item ↦
    (s.resolved.get? item.1).isNone

/-- The unresolved entries of a phase. -/
def phaseEntries (s : LoopState) (phase : String) : List (ℕ × ValidationEntry) :=
  (openEntries env s).filter fun item ↦
    getEntryPhase item.2 s.context.stepPhases.get? = phase

def resolveInputs (s : LoopState) (excludeTests : List Scalar) : ResolveInputs :=
  { stepOutputs := s.context.steps
    stepPhases := s.context.stepPhases
    requestedPhases := env.plan.requestedPhases
    includeLabels := env.plan.options.includeLabels
    excludeLabels := env.plan.excludeLabels
    excludeTests
    renderContext := s.context.data
    capability := env.plan.options.capability
    skippedSteps := env.plan.skippedSteps }

/-- `_resolve_validation_entries`, called with `set(exclude_tests)`. -/
def decideEntries (s : LoopState) (entries : List ValidationEntry) :
    Except PyError (List ResolvedEntry) := do
  let excludeTests ← env.plan.excludeTests.toSet
  resolveEntries env.world.host (resolveInputs env s excludeTests) entries

/-! ## Report files of a phase -/

def junitName (phase suffix : String) : String := s!"junit-{phase}{suffix}.xml"

def suiteName (phase : String) : String := s!"{env.plan.platform}/{phase}"

/-- Write a stub file and add it to the list of files. -/
def writeStub (s : LoopState) (phase suffix : String) (records : List ResolvedEntry) :
    Except PyError LoopState := do
  env.world.reports.openWrite (junitName phase suffix)
  return { s with
    files := s.files.insert (env.world.reports.locate (junitName phase suffix))
      (writeTerminalJunitXml records (suiteName env phase))
    junitFiles := s.junitFiles ++ [junitName phase suffix] }

/-- Write a stub file where there is a directory for it and something to write. -/
def stubWhen (s : LoopState) (phase suffix : String) (records : List ResolvedEntry) :
    Except PyError LoopState :=
  if records.isEmpty || env.tmpdir.isNone then .ok s else writeStub env s phase suffix records

/-- The file under a path, where it exists; no directory means no file. -/
def readReport (s : LoopState) (name : String) : Except PyError (Option JUnitDoc) :=
  if env.tmpdir.isNone then .ok none
  else do
    env.world.reports.stat name
    return s.files.get? (env.world.reports.locate name)

/-! ## The pytest session of a phase -/

/-- The request for the ready entries of a phase, if there are any. -/
def phaseRequest (s : LoopState) (phase : String) (ready : List ResolvedEntry) :
    Option SessionRequest :=
  if ready.isEmpty then none
  else some (sessionRequest (entriesWithPytestNames ready)
    (s.context.liveSettings env.plan.settings) s.context.data env.plan.options.extraPytestArgs
    env.plan.options.verbose
    (env.tmpdir.map fun dir ↦
      let name := junitName phase ""
      s!"{dir}/{name}")
    (suiteName env phase))

/-- The report which a session wrote. -/
def storeReport (s : LoopState) (phase : String) (xml : Option JUnitDoc) : LoopState :=
  match env.tmpdir, xml with
  | some _, some doc =>
    { s with files := s.files.insert (env.world.reports.locate (junitName phase "")) doc }
  | _, _ => s

/-- Add pytest's report to the list of files, where it exists. -/
def listReport (s : LoopState) (phase : String) (document : Option JUnitDoc) : LoopState :=
  if document.isSome then { s with junitFiles := s.junitFiles ++ [junitName phase ""] } else s

/-- Put the executed records in the places of the ready ones. -/
def weave : List ResolvedEntry → List ResolvedEntry → Except PyError (List ResolvedEntry)
  | [], _ => .ok []
  | record :: rest, executed =>
    if record.isReady then
      match executed with
      | [] => .error (.other "StopIteration" "")
      | first :: others => (weave rest others).map (first :: ·)
    else (weave rest executed).map (record :: ·)

/-- Record a list of settled entries. -/
def settle (resolved : OrderedMap ℕ ResolvedEntry) (pairs : List (ℕ × ResolvedEntry)) :
    OrderedMap ℕ ResolvedEntry :=
  pairs.foldl (fun map pair ↦ map.insert pair.1 pair.2) resolved

/-! ## One phase -/

/-- An exception ends the run in this phase. -/
def abort (s : LoopState) (phase : String) (log : PhaseLog) (raised : PyError) :
    Loop.Signal PyError LoopState :=
  .raise raised { s with visits := s.visits ++ [.executed phase { log with success := false }] }

/-- The end of a phase: terminal records, stubs for executed entries which pytest's report does
not list, and the phase result. -/
def reportPhase (s : LoopState) (phase : String) (log : PhaseLog) (results : StepResults) :
    Loop.Signal PyError LoopState :=
  match readReport env s (junitName phase "") with
  | .error raised => abort s phase log raised
  | .ok document =>
    let log := { log with document }
    match stubWhen env (listReport s phase document) phase "-deselected"
        (entriesMissingFromJunit log.executed document) with
    | .error raised => abort s phase log raised
    | .ok s =>
      match weave log.decided log.executed with
      | .error raised => abort s phase log raised
      | .ok records =>
        let log := { log with records }
        let s := { s with resolved := settle s.resolved (log.indexes.zip records) }
        if (env.plan.phaseSteps env.world.host phase).isEmpty && records.isEmpty then
          .next { s with visits := s.visits ++ [.executed phase log] }
        else
          match createPhaseResult env.world.host (phaseEnumForName phase) results
              (records.map toResultDict) phase log.exitCode with
          | .error raised => abort s phase log raised
          | .ok result =>
            .next { s with
              phaseResults := s.phaseResults ++ [result]
              overallSuccess := s.overallSuccess && result.success
              visits := s.visits ++ [.executed phase { log with success := result.success }] }

/-- The session of a phase, which a configuration that is not JSON prevents. -/
def runSession (s : LoopState) (phase : String) (log : PhaseLog) (results : StepResults) :
    Loop.Signal PyError LoopState :=
  match phaseRequest env s phase log.ready with
  | none => reportPhase env s phase log results
  | some request =>
    if !request.jsonable then
      abort s phase log (.typeError "Object is not JSON serializable")
    else
      let outcome := env.world.session s.sessions request
      let s := { s with sessions := s.sessions + 1 }
      let log := { log with session := some (request, outcome) }
      match outcome with
      | .raised raised => abort s phase log raised
      | .returned _ captured xml =>
        let executed := applyPytestResults (entriesWithPytestNames log.ready) captured
        reportPhase env (storeReport env s phase xml) phase { log with executed } results

/-- The validations of a phase, after its steps. -/
def validatePhase (s : LoopState) (phase : String) (attempts : List Attempt)
    (results : StepResults) : Loop.Signal PyError LoopState :=
  let pairs := phaseEntries env s phase
  match decideEntries env s (pairs.map Prod.snd) with
  | .error raised => abort s phase { attempts } raised
  | .ok decided =>
    let log : PhaseLog := { attempts, indexes := pairs.map Prod.fst, decided }
    match stubWhen env s phase "-resolved" log.preResolved with
    | .error raised => abort s phase log raised
    | .ok s => runSession env s phase log results

/-- A phase which is not gated: its steps, then its validations. -/
def executePhase (s : LoopState) (phase : String) : Loop.Signal PyError LoopState :=
  let steps := env.plan.phaseSteps env.world.host phase
  let setupRan := phase = "setup" ∧ steps.any fun item ↦ !item.2.skip
  match executeSteps env.world.host steps s.context s.tick (phase = "teardown") with
  | .raise raised exec =>
    abort { s with context := exec.context, tick := exec.tick } phase
      { attempts := exec.attempts } raised
  | .next exec | .halt exec =>
    validatePhase env
      { s with
        context := exec.context
        tick := exec.tick
        setupStepsRan := s.setupStepsRan || decide setupRan }
      phase exec.attempts exec.results

/-- Why a requested phase does not run. -/
def gate (s : LoopState) (phase : String) : Option String :=
  if phase = "teardown" then
    if env.plan.requests "setup" && !s.setupStepsRan then some "setup steps did not run"
    else if !s.overallSuccess && !env.plan.options.teardownOnFailure then
      some "teardown_on_failure is disabled"
    else none
  else if !s.overallSuccess then some "previous phase failed"
  else none

/-- One iteration of the phase loop. -/
def visitPhase (phase : String) (s : LoopState) : Loop.Signal PyError LoopState :=
  if !env.plan.requests phase then
    .next { s with visits := s.visits ++ [.notRequested phase] }
  else
    match gate env s phase with
    | some reason =>
      .next { s with
        phaseResults := s.phaseResults ++
          [{ phase := phaseEnumForName phase, success := true, message := s!"SKIPPED: {reason}" }]
        visits := s.visits ++ [.skipped phase reason] }
    | none => executePhase env s phase

/-! ## After the loop -/

/-- A ready entry whose phase did not run is terminal too. -/
def terminalizeLeftover (stepPhases : String → Option String) (record : ResolvedEntry) :
    ResolvedEntry :=
  if record.isReady then
    let phase := getEntryPhase record.entry stepPhases
    { entry := record.entry
      renderedParams := record.renderedParams
      state := some .skipped
      skipReason := some .phaseNotRequested
      message := if env.plan.configPhases.contains phase then s!"phase '{phase}' did not run"
        else s!"phase '{phase}' is not configured for this run" }
  else record

/-- Records grouped by the phase of their entry, in order of first appearance. -/
def byPhase (stepPhases : String → Option String) (records : List ResolvedEntry) :
    OrderedMap String (List ResolvedEntry) :=
  .groupWith (· ++ ·) (records.map fun record ↦ (getEntryPhase record.entry stepPhases, [record]))

/-- Write one stub file for each phase of unexecuted entries. -/
def writeUnexecuted (groups : List (String × List ResolvedEntry)) (s : LoopState) :
    Except PyError LoopState :=
  groups.foldlM (fun s group ↦ writeStub env s group.1 "-unexecuted" group.2) s

/-- `_append_resolution_only_phase_results`, for one phase. -/
def resolutionOnlyResult (group : String × List ResolvedEntry) : PhaseResult :=
  let (phase, records) := group
  { phase := phaseEnumForName phase
    success := records.all entrySuccess
    message := s!"{phase} phase validations resolved without execution"
    details := some { validations := records.map toResultDict } }

/-- The pass over the entries which no phase settled. -/
def resolveRemaining (s : LoopState) : Except PyError LoopState :=
  let pairs := openEntries env s
  if pairs.isEmpty then .ok s
  else do
    let decided ← decideEntries env s (pairs.map Prod.snd)
    let stepPhases := s.context.stepPhases.get?
    let records := decided.map (terminalizeLeftover env stepPhases)
    let groups := (byPhase stepPhases records).entries
    let s := { s with resolved := settle s.resolved ((pairs.map Prod.fst).zip records) }
    let s ← if env.tmpdir.isNone then pure s else writeUnexecuted env groups s
    return { s with
      phaseResults := s.phaseResults ++ groups.map resolutionOnlyResult
      overallSuccess := s.overallSuccess && records.all entrySuccess }

/-- The merged report, where one is asked for and there is a file to merge. -/
def mergeReports (s : LoopState) : Except PyError (Option (List Suite)) :=
  if env.tmpdir.isNone || s.junitFiles.isEmpty then .ok none
  else do
    let docs := s.junitFiles.filterMap fun name ↦ s.files.get? (env.world.reports.locate name)
    let report ← mergeJunitXmls env.world.reports.redact docs
      (env.plan.entries.map ValidationEntry.name)
    env.world.reports.writeReport
    return some report

/-- The records in the order of their positions. -/
def sortedRecords (resolved : OrderedMap ℕ ResolvedEntry) : List ResolvedEntry :=
  (resolved.keys.insertionSort (· ≤ ·)).filterMap resolved.get?

end Phase

/-! ## A whole run -/

/-- A run which went through the phase loop and returned. -/
structure Finished where
  env : RunEnv
  state : LoopState
  result : OrchestratorResult
  report : Option (List Suite)

/-- How a run ends; an exception leaves the log of the phases visited. -/
inductive RunOutcome where
  | early (result : OrchestratorResult)
  | finished (run : Finished)
  | raised (error : PyError) (visits : List Visit)

/-- The phases visited by a run, in order. -/
def RunOutcome.visits : RunOutcome → List Visit
  | early _ => []
  | finished run => run.state.visits
  | raised _ visits => visits

/-- The phase loop from its first phase. -/
def runPhases (env : RunEnv) (context : Context) : Loop.Signal PyError LoopState :=
  Loop.run (visitPhase env) env.plan.configPhases { context }

/-- The loop, the pass after it and the merged report. -/
def runPlan (env : RunEnv) (context : Context) : RunOutcome :=
  match runPhases env context with
  | .raise raised s => .raised raised s.visits
  | .next s | .halt s =>
    match resolveRemaining env s with
    | .error raised => .raised raised s.visits
    | .ok final =>
      match mergeReports env final with
      | .error raised => .raised raised final.visits
      | .ok report =>
        .finished
          { env
            state := final
            result :=
              { success := final.overallSuccess
                phases := final.phaseResults
                inventory := some final.context.steps
                validations := sortedRecords final.resolved }
            report }

/-- `Orchestrator.run`. -/
def run (world : World) (config : RunConfig) (options : RunOptions) : RunOutcome :=
  match prepare world.host config options with
  | .error raised => .raised raised []
  | .ok (.early result) => .early result
  | .ok (.ready plan context) =>
    if (options.junitxml.filter (· ≠ "")).isNone then runPlan ⟨world, plan, none⟩ context
    else
      match world.reports.mkdtemp with
      | .error raised => .raised raised []
      | .ok dir => runPlan ⟨world, plan, some dir⟩ context

end IsvValidation.Orchestrator
