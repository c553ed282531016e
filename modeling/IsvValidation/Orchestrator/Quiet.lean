import IsvValidation.Orchestrator.Verdict

/-!
# Phases which no exception leaves

An exception which leaves a phase ends the run. This module collects what keeps every call outside
of a `try` block from raising: commands which split into words, script paths which can be looked up,
processes which are not interrupted, a mapping in which the context collects step outputs, step
outputs which are objects, label and name lists which can be put into a set, report files which can
be written, and a session which can be configured and returns. Each condition is one on the state
before the step or the phase.
-/

namespace IsvValidation.Orchestrator

open Config Host Junit Library Pytest Resolution

variable {env : RunEnv} {s s' : LoopState} {phase : String}

/-- The context collects step outputs in a mapping. -/
def Context.Collects (context : Context) : Prop :=
  ∃ outputs, context.data.lookup (.str "steps") = some (.dict outputs)

/-- No exception leaves the attempt at a live step. -/
structure StepQuiet (host : Runtime) (item : ℕ × StepConfig) (state : ExecState) : Prop where
  command : ∀ args, renderArgs host state.context item.2.args = .ok args →
    ∃ words argv, commandWords host item.2.command = .ok words ∧
      resolvePythonScriptPath (host.scripts state.tick) (words ++ args)
        ((item.2.workingDir.filter (· ≠ "")).getD host.workingDir) = .ok argv
  process : ∀ launch, host.process state.tick launch ≠ .interrupted

/-- A live step which exits with 0 and passes its schema prints an object, or nothing that counts as
true. -/
def PrintsObject (host : Runtime) (item : ℕ × StepConfig) (state : ExecState) : Prop :=
  ∀ launch stdout stderr result,
    host.process state.tick launch = .completed 0 stdout stderr →
    finishStep host item.2 0 stdout stderr = .ok result → result.success = true →
    result.output.truthy = true → result.output.isObject = true

/-- No exception leaves the steps of a phase. -/
structure StepsQuiet (env : RunEnv) (phase : String) (s : LoopState) : Prop where
  outputs : s.context.Collects
  steps : Loop.Always (stepBody env.world.host (decide (phase = "teardown")))
    (fun item state ↦ item.2.skip = false → StepQuiet env.world.host item state)
    (env.plan.phaseSteps env.world.host phase) { context := s.context, tick := s.tick }

/-- The suffixes of the stub files which a phase may write. -/
def stubSuffixes : List String := ["-resolved", "-deselected"]

/-- Where there are report files, the report of the phase's session can be looked up and the stubs
of the phase can be written. -/
structure ReportsQuiet (env : RunEnv) (phase : String) : Prop where
  report : env.tmpdir.isSome → env.world.reports.stat (junitName phase "") = .ok ()
  stubs : env.tmpdir.isSome → ∀ suffix ∈ stubSuffixes,
    env.world.reports.openWrite (junitName phase suffix) = .ok ()

/-- No exception leaves what a phase does after its steps. -/
structure ValidationsQuiet (env : RunEnv) (phase : String) (s : LoopState) : Prop where
  summary : Loop.Always (stepBody env.world.host (decide (phase = "teardown")))
    (fun item state ↦ item.2.skip = false → PrintsObject env.world.host item state)
    (env.plan.phaseSteps env.world.host phase) { context := s.context, tick := s.tick }
  excludeTests : ∃ names, env.plan.excludeTests.toSet = .ok names
  reports : ReportsQuiet env phase
  session : ∀ (exec : ExecState) (decided : List ResolvedEntry) (request : SessionRequest),
    exec = (executeSteps env.world.host (env.plan.phaseSteps env.world.host phase) s.context s.tick
      (decide (phase = "teardown"))).state →
    decideEntries env (afterSteps env s phase exec) ((phaseEntries env s phase).map Prod.snd) =
      .ok decided →
    phaseRequest env (afterSteps env s phase exec) phase (decided.filter ResolvedEntry.isReady) =
      some request →
    request.jsonable = true ∧ ∃ exitCode captured xml,
      env.world.session s.sessions request = .returned exitCode captured xml

/-! ## The steps -/

/-- An output is stored in the mapping that collects it, which stays a mapping. -/
theorem Context.Collects.storeOutput {context : Context} (h : context.Collects) (step : StepConfig)
    (result : StepResult) :
    ∃ after, Orchestrator.storeOutput context step result = .ok after ∧ after.Collects := by
  unfold Orchestrator.storeOutput
  split
  · obtain ⟨outputs, houtputs⟩ := h
    have hget : (Value.dict context.data).getItem "steps" = .ok (.dict outputs) := by
      simp [Value.getItem, houtputs]
    unfold Context.setStepOutput
    rw [hget]
    exact ⟨_, rfl, _, Value.lookup_assignKey ..⟩
  · exact ⟨context, rfl, h⟩

/-- Only a process which exited with 0 makes a step succeed. -/
theorem exitCode_of_finishStep {host : Runtime} {step : StepConfig} {exitCode : Int}
    {stdout stderr : String} {result : StepResult}
    (h : finishStep host step exitCode stdout stderr = .ok result) (hsuccess : result.success = true) :
    exitCode = 0 := by
  by_contra hne
  have hfailed : ∀ output error, ({ name := step.name, success := exitCode == 0, exitCode, stdout, stderr
                                    output, error } : StepResult) ≠ result := by
    intro output error heq
    rw [← heq] at hsuccess
    simp [hne] at hsuccess
  unfold finishStep at h
  simp only [ne_eq, hne, not_false_eq_true, if_true] at h
  by_cases htext : host.unicode.strip stdout = ""
  · rw [if_pos htext, pure_bind] at h
    split at h
    · cases h
    · exact hfailed _ _ (Except.ok.inj h)
  · rw [if_neg htext] at h
    cases hloads : host.loads (host.unicode.strip stdout) with
    | failed message => rw [hloads] at h; cases h
    | value _ | undecodable =>
      rw [hloads] at h
      simp only [pure_bind] at h
      split at h
      · cases h
      · exact hfailed _ _ (Except.ok.inj h)

/-- A launched step which is not interrupted has a result. -/
theorem outcome_launchStep {host : Runtime} {tick : ℕ} {context : Context} {step : StepConfig}
    {cwd : String} {argv : List String} (hprocess : ∀ launch, host.process tick launch ≠ .interrupted) :
    ∃ result, (launchStep host tick context step cwd argv).outcome = .ok result ∧
      (result.success = true → ∃ launch stdout stderr,
        host.process tick launch = .completed 0 stdout stderr ∧
        finishStep host step 0 stdout stderr = .ok result) := by
  unfold launchStep
  split
  · exact ⟨_, rfl, by simp [StepResult.failure]⟩
  · rename_i overrides _
    simp only
    split
    · rename_i exitCode stdout stderr hcompleted
      split
      · rename_i result hfinish
        refine ⟨result, rfl, fun hsuccess ↦ ?_⟩
        rw [exitCode_of_finishStep hfinish hsuccess] at hcompleted hfinish
        exact ⟨_, stdout, stderr, hcompleted, hfinish⟩
      · exact ⟨_, rfl, by simp [StepResult.failure]⟩
    · exact ⟨_, rfl, by simp [StepResult.failure]⟩
    · exact ⟨_, rfl, by simp [StepResult.failure]⟩
    · exact ⟨_, rfl, by simp [StepResult.failure]⟩
    · rename_i hinterrupted
      exact absurd hinterrupted (hprocess _)

/-- A quiet attempt has a result; where it succeeded, the process printed what the result holds. -/
theorem StepQuiet.outcome {host : Runtime} {item : ℕ × StepConfig} {state : ExecState}
    (h : StepQuiet host item state) :
    ∃ result, (executeStep host state.tick state.context item.2).outcome = .ok result ∧
      (result.success = true → ∃ launch stdout stderr,
        host.process state.tick launch = .completed 0 stdout stderr ∧
        finishStep host item.2 0 stdout stderr = .ok result) := by
  unfold executeStep
  cases hargs : renderArgs host state.context item.2.args with
  | error missing => exact ⟨_, rfl, by simp [StepResult.failure]⟩
  | ok args =>
    obtain ⟨words, argv, hwords, hargv⟩ := h.command args hargs
    simp only [hwords, hargv]
    exact outcome_launchStep h.process

/-- A quiet attempt adds its result and stores its output; then the phase stops or goes on. -/
theorem StepQuiet.stepBody {host : Runtime} {item : ℕ × StepConfig} {state : ExecState}
    (h : StepQuiet host item state) (hskip : item.2.skip = false) (hcollects : state.context.Collects)
    (bestEffort : Bool) :
    ∃ (result : StepResult) (after : ExecState), after.context.Collects ∧
      after.results = state.results.addStep result ∧
      (result.success = true → ∃ launch stdout stderr,
        host.process state.tick launch = .completed 0 stdout stderr ∧
        finishStep host item.2 0 stdout stderr = .ok result) ∧
      (Orchestrator.stepBody host bestEffort item state = .halt after ∨
        Orchestrator.stepBody host bestEffort item state = .next after) := by
  obtain ⟨result, houtcome, hsuccess⟩ := h.outcome
  obtain ⟨context, hstore, hstored⟩ := hcollects.storeOutput item.2 result
  refine ⟨result, { state with
    context
    tick := state.tick + 1
    attempts := state.attempts ++
      [⟨item.1, (executeStep host state.tick state.context item.2).launch, some result⟩]
    results := state.results.addStep result }, hstored, rfl, hsuccess, ?_⟩
  unfold Orchestrator.stepBody
  simp only [hskip, Bool.false_eq_true, if_false, houtcome, hstore]
  by_cases hstop : (!result.success && !item.2.continueOnFailure && !bestEffort) = true
  · exact Or.inl (if_pos hstop)
  · exact Or.inr (if_neg hstop)

/-- A result which the phase summary can report. -/
def Reportable (result : StepResult) : Prop := ∃ status, stepStatus result = .ok status

/-- Only a successful step is asked whether its output says that it was skipped. -/
theorem reportable_of_object {result : StepResult}
    (h : result.success = true → result.output.truthy = true → result.output.isObject = true) :
    Reportable result := by
  have hpassed : result.success = true → result.output.truthy = true →
      ∃ status, (do
        let reported ← result.output.get "skipped"
        return if reported.any Json.truthy then "skipped" else "passed" : Except PyError String) =
          .ok status := by
    intro hsuccess htruthy
    obtain ⟨reported, hreported⟩ := Json.get_of_isObject (h hsuccess htruthy) "skipped"
    rw [hreported]
    exact ⟨_, rfl⟩
  unfold Reportable stepStatus
  by_cases hplaceholder : result.isPlaceholder = true
  · exact ⟨"skipped", if_pos hplaceholder⟩
  · rw [if_neg hplaceholder]
    by_cases hsuccess : result.success = true
    · rw [if_pos hsuccess]
      by_cases htruthy : result.output.truthy = true
      · rw [if_pos htruthy]
        exact hpassed hsuccess htruthy
      · exact ⟨"passed", if_neg htruthy⟩
    · exact ⟨"failed", if_neg hsuccess⟩

/-- Quiet steps do not raise, and the context goes on collecting outputs. -/
theorem StepsQuiet.executeSteps (h : StepsQuiet env phase s) :
    (Orchestrator.executeSteps env.world.host (env.plan.phaseSteps env.world.host phase) s.context
        s.tick (decide (phase = "teardown"))).error? = none ∧
      (Orchestrator.executeSteps env.world.host (env.plan.phaseSteps env.world.host phase) s.context
        s.tick (decide (phase = "teardown"))).state.context.Collects := by
  unfold Orchestrator.executeSteps
  refine h.steps.run_rule (I := fun _ state ↦ state.context.Collects)
    (Q := fun signal ↦ signal.error? = none ∧ signal.state.context.Collects) h.outputs ?_ ?_
  · intro done item rest state _ hquiet hcollects
    cases hskip : item.2.skip with
    | true =>
      rw [stepBody_skip env.world.host hskip]
      exact hcollects
    | false =>
      obtain ⟨result, after, hstored, _, _, hbody | hbody⟩ :=
        (hquiet hskip).stepBody hskip hcollects (decide (phase = "teardown"))
      · rw [hbody]
        exact ⟨rfl, hstored⟩
      · rw [hbody]
        exact hstored
  · exact fun state hcollects ↦ ⟨rfl, hcollects⟩

/-- Where every successful step prints an object, every result can be reported. -/
theorem StepsQuiet.reportable (h : StepsQuiet env phase s)
    (hprints : Loop.Always (Orchestrator.stepBody env.world.host (decide (phase = "teardown")))
      (fun item state ↦ item.2.skip = false → PrintsObject env.world.host item state)
      (env.plan.phaseSteps env.world.host phase) { context := s.context, tick := s.tick }) :
    ∀ result ∈ (Orchestrator.executeSteps env.world.host
      (env.plan.phaseSteps env.world.host phase) s.context s.tick
      (decide (phase = "teardown"))).state.results.steps, Reportable result := by
  unfold Orchestrator.executeSteps
  refine (h.steps.and hprints).run_rule
    (I := fun _ state ↦ state.context.Collects ∧ ∀ result ∈ state.results.steps, Reportable result)
    (Q := fun signal ↦ ∀ result ∈ signal.state.results.steps, Reportable result) ?_ ?_ ?_
  · exact ⟨h.outputs, fun result hresult ↦ absurd hresult List.not_mem_nil⟩
  · rintro done item rest state _ ⟨hstep, hprint⟩ ⟨hcollects, hdone⟩
    have hadded : ∀ result, Reportable result →
        ∀ other ∈ (state.results.addStep result).steps, Reportable other := by
      intro result hreportable other hother
      rcases List.mem_append.mp hother with hold | hnew
      · exact hdone other hold
      · rw [List.mem_singleton.mp hnew]
        exact hreportable
    cases hskip : item.2.skip with
    | true =>
      rw [stepBody_skip env.world.host hskip]
      exact ⟨hcollects, hadded _ ⟨"skipped", rfl⟩⟩
    | false =>
      obtain ⟨result, after, hstored, hresults, hsuccess, hbody⟩ :=
        (hstep hskip).stepBody hskip hcollects (decide (phase = "teardown"))
      have hreportable : ∀ other ∈ after.results.steps, Reportable other := by
        rw [hresults]
        apply hadded
        apply reportable_of_object
        intro hok htruthy
        obtain ⟨launch, stdout, stderr, hprocess, hfinish⟩ := hsuccess hok
        exact hprint hskip launch stdout stderr result hprocess hfinish hok htruthy
      rcases hbody with hbody | hbody
      · rw [hbody]
        exact hreportable
      · rw [hbody]
        exact ⟨hstored, hreportable⟩
  · exact fun state hdone ↦ hdone.2

/-! ## The validations -/

theorem Context.Collects.isDict {context : Context} (h : context.Collects) :
    context.steps.isDict = true := by
  obtain ⟨outputs, houtputs⟩ := h
  simp [Context.steps, houtputs, Value.isDict]

theorem decideEntries_isOk (houtputs : s.context.Collects)
    (hexclude : ∃ names, env.plan.excludeTests.toSet = .ok names) (entries : List ValidationEntry) :
    ∃ decided, decideEntries env s entries = .ok decided := by
  obtain ⟨names, hnames⟩ := hexclude
  unfold decideEntries
  rw [hnames]
  exact resolveEntries_isOk houtputs.isDict entries

theorem stubWhen_isOk (h : ReportsQuiet env phase) (s : LoopState) (suffix : String)
    (hsuffix : suffix ∈ stubSuffixes) (records : List ResolvedEntry) :
    ∃ after, stubWhen env s phase suffix records = .ok after := by
  unfold stubWhen writeStub
  split
  · exact ⟨s, rfl⟩
  · rename_i hnot
    have hdir : env.tmpdir.isSome = true := by
      cases htmp : env.tmpdir with
      | none => simp [htmp] at hnot
      | some dir => rfl
    rw [h.stubs hdir suffix hsuffix]
    exact ⟨_, rfl⟩

theorem createPhaseResult_isOk (host : Runtime) {results : StepResults}
    (h : ∀ result ∈ results.steps, Reportable result) (kind : Phase)
    (validations : List ValidationDetail) (name : String) (exitCode : Option Int) :
    ∃ result, createPhaseResult host kind results validations name exitCode = .ok result := by
  have hmessages : ∃ messages, (results.steps.mapM fun step ↦ do
      let status ← stepStatus step
      return s!"{step.name}: {status}") = .ok messages := by
    apply exists_mapM_ok
    intro step hstep
    obtain ⟨status, hstatus⟩ := h step hstep
    rw [hstatus]
    exact ⟨_, rfl⟩
  obtain ⟨messages, hmessages⟩ := hmessages
  unfold createPhaseResult
  simp only [hmessages]
  exact ⟨_, rfl⟩

/-- The last stage of a phase goes through. -/
theorem reportPhase_isOk {log : PhaseLog} {results : StepResults}
    (hreports : ReportsQuiet env phase)
    (hwoven : ∃ records, weave log.decided log.executed = .ok records)
    (hresults : ∀ result ∈ results.steps, Reportable result) :
    ∃ after, reportPhase env s phase log results = .next after := by
  have hread : ∃ document, readReport env s (junitName phase "") = .ok document := by
    unfold readReport
    cases htmp : env.tmpdir with
    | none => exact ⟨none, rfl⟩
    | some dir =>
      rw [hreports.report (by rw [htmp]; rfl)]
      exact ⟨_, rfl⟩
  obtain ⟨document, hread⟩ := hread
  obtain ⟨records, hwoven⟩ := hwoven
  obtain ⟨between, hbetween⟩ := stubWhen_isOk hreports (listReport s phase document) "-deselected"
    (by simp [stubSuffixes]) (entriesMissingFromJunit log.executed document)
  unfold reportPhase
  simp only [hread, hbetween, hwoven]
  split
  · exact ⟨_, rfl⟩
  · obtain ⟨result, hresult⟩ := createPhaseResult_isOk env.world.host hresults
      (phaseEnumForName phase) (records.map toResultDict) phase
      (PhaseLog.exitCode { log with document, records })
    rw [hresult]
    exact ⟨_, rfl⟩

/-- Decided entries are woven with the records of their session. -/
theorem weave_isOk {entries : List ValidationEntry} {decided executed : List ResolvedEntry}
    (hdecided : List.Forall₂ (fun entry record ↦ record.Decides entry) entries decided)
    (hexecuted : List.Forall₂ (fun record after ↦ RecordOf record.entry after)
      (decided.filter ResolvedEntry.isReady) executed) :
    ∃ records, weave decided executed = .ok records := by
  obtain ⟨records, hrecords, _⟩ := weave_forall₂ (keeps_of_decides hdecided) hexecuted
  exact ⟨records, hrecords⟩

/-- The session of a phase goes through. -/
theorem runSession_isOk {log : PhaseLog} {results : StepResults} {entries : List ValidationEntry}
    (hreports : ReportsQuiet env phase)
    (hsession : ∀ request, phaseRequest env s phase log.ready = some request →
      request.jsonable = true ∧ ∃ exitCode captured xml,
        env.world.session s.sessions request = .returned exitCode captured xml)
    (hdecided : List.Forall₂ (fun entry record ↦ record.Decides entry) entries log.decided)
    (hexecuted : log.executed = [])
    (hresults : ∀ result ∈ results.steps, Reportable result) :
    ∃ after, runSession env s phase log results = .next after := by
  unfold runSession
  cases hrequest : phaseRequest env s phase log.ready with
  | none =>
    apply reportPhase_isOk hreports _ hresults
    apply weave_isOk hdecided
    have hready : log.ready = [] := by
      unfold phaseRequest at hrequest
      split at hrequest
      · rename_i hempty
        exact List.isEmpty_iff.mp hempty
      · cases hrequest
    rw [hexecuted, show log.decided.filter ResolvedEntry.isReady = [] from hready]
    exact .nil
  | some request =>
    obtain ⟨hjsonable, exitCode, captured, xml, houtcome⟩ := hsession request hrequest
    simp only [hjsonable, Bool.not_true, Bool.false_eq_true, if_false, houtcome]
    apply reportPhase_isOk hreports _ hresults
    exact weave_isOk hdecided
      (executed_forall₂ captured fun record hmem ↦ (List.mem_filter.mp hmem).2)

/-- No exception leaves a quiet phase. -/
theorem executePhase_isOk (hsteps : StepsQuiet env phase s) (hquiet : ValidationsQuiet env phase s) :
    ∃ after, executePhase env s phase = .next after := by
  obtain ⟨hraise, hcollects⟩ := hsteps.executeSteps
  have hreportable := hsteps.reportable hquiet.summary
  have hphases := @stepPhases_executeSteps env.world.host
    (env.plan.phaseSteps env.world.host phase) s.context s.tick (decide (phase = "teardown"))
  have hrest : ∀ exec : ExecState, exec = (executeSteps env.world.host
      (env.plan.phaseSteps env.world.host phase) s.context s.tick (decide (phase = "teardown"))).state →
      ∃ after, validatePhase env (afterSteps env s phase exec) phase exec.attempts exec.results =
        .next after := by
    intro exec hexec
    rw [← hexec] at hcollects hreportable hphases
    obtain ⟨decided, hdecided⟩ := decideEntries_isOk (s := afterSteps env s phase exec) hcollects
      hquiet.excludeTests ((phaseEntries env s phase).map Prod.snd)
    unfold validatePhase
    rw [phaseEntries_afterSteps hphases]
    simp only [hdecided]
    obtain ⟨before, hbefore⟩ := stubWhen_isOk hquiet.reports (afterSteps env s phase exec)
      "-resolved" (by simp [stubSuffixes]) (decided.filter fun record ↦ !record.isReady)
    obtain ⟨files, junitFiles, rfl⟩ := stubWhen_frame hbefore
    simp only [PhaseLog.preResolved, hbefore]
    apply runSession_isOk hquiet.reports _ (decideEntries_forall₂ hdecided) rfl hreportable
    exact fun request hrequest ↦ hquiet.session exec decided request hexec hdecided hrequest
  unfold executePhase
  simp only
  cases hexec : executeSteps env.world.host (env.plan.phaseSteps env.world.host phase) s.context
      s.tick (decide (phase = "teardown")) with
  | raise raised exec =>
    rw [hexec] at hraise
    cases hraise
  | next exec => exact hrest exec (by rw [hexec]; rfl)
  | halt exec => exact hrest exec (by rw [hexec]; rfl)

end IsvValidation.Orchestrator
