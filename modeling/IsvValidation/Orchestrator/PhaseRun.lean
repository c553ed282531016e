import IsvValidation.Orchestrator.Loop

/-!
# What one executed phase does

The inversion of one pass through `executePhase`: whichever way the phase ends, its log holds the
attempts at its steps and the entries it was responsible for; where it ends normally, the facts
collected here say how the state after it comes from the state before it. Invariants of the loop
are derived from these facts, and no proof about the loop unfolds the phase again.
-/

namespace IsvValidation.Orchestrator

open Config Host Junit Library Pytest Resolution

variable {env : RunEnv} {s s' : LoopState} {phase : String}

/-! ## Frames -/

/-- Writing a stub changes the files and nothing else. -/
theorem stubWhen_frame {suffix : String} {records : List ResolvedEntry}
    (h : stubWhen env s phase suffix records = .ok s') :
    ∃ files junitFiles, s' = { s with files, junitFiles } := by
  unfold stubWhen writeStub at h
  split at h
  · cases h
    exact ⟨s.files, s.junitFiles, rfl⟩
  · cases hopen : env.world.reports.openWrite (junitName phase suffix) with
    | error raised => rw [hopen] at h; cases h
    | ok _ =>
      rw [hopen] at h
      cases h
      exact ⟨_, _, rfl⟩

theorem storeReport_frame (env : RunEnv) (s : LoopState) (phase : String) (xml : Option JUnitDoc) :
    ∃ files, storeReport env s phase xml = { s with files } := by
  unfold storeReport
  split
  · exact ⟨_, rfl⟩
  · exact ⟨s.files, rfl⟩

theorem listReport_frame (s : LoopState) (phase : String) (document : Option JUnitDoc) :
    ∃ junitFiles, listReport s phase document = { s with junitFiles } := by
  unfold listReport
  split
  · exact ⟨_, rfl⟩
  · exact ⟨s.junitFiles, rfl⟩

/-- Storing an output leaves the phases of the steps. -/
theorem stepPhases_storeOutput {context after : Context} {step : StepConfig} {result : StepResult}
    (h : storeOutput context step result = .ok after) : after.stepPhases = context.stepPhases := by
  unfold storeOutput Context.setStepOutput at h
  split at h
  · cases hget : (Value.dict context.data).getItem "steps" with
    | error raised => rw [hget] at h; cases h
    | ok steps =>
      cases hset : steps.setItem step.name result.output.toValue with
      | error raised =>
        rw [hget] at h
        simp only [bind, Except.bind, hset] at h
        cases h
      | ok stored =>
        rw [hget] at h
        simp only [bind, Except.bind, hset] at h
        cases h
        rfl
  · cases h
    rfl

theorem stepPhases_stepBody {host : Runtime} {bestEffort : Bool} (item : ℕ × StepConfig)
    (state : ExecState) :
    (stepBody host bestEffort item state).state.context.stepPhases = state.context.stepPhases := by
  unfold stepBody
  simp only
  split
  · rfl
  · cases (executeStep host state.tick state.context item.2).outcome with
    | error raised => rfl
    | ok result =>
      simp only
      cases hstore : storeOutput state.context item.2 result with
      | error raised => rfl
      | ok context =>
        have hphases := stepPhases_storeOutput hstore
        simp only
        split <;> exact hphases

theorem stepPhases_executeSteps {host : Runtime} (steps : List (ℕ × StepConfig))
    (context : Context) (tick : ℕ) (bestEffort : Bool) :
    (executeSteps host steps context tick bestEffort).state.context.stepPhases =
      context.stepPhases := by
  unfold executeSteps
  refine Loop.run_invariant
    (I := fun state : ExecState ↦ state.context.stepPhases = context.stepPhases) rfl ?_
  intro item _ state hstate
  exact (stepPhases_stepBody item state).trans hstate

/-! ## Facts of a phase which ended normally -/

/-- The state in which the validations of a phase start, from the executor's final state. -/
def afterSteps (env : RunEnv) (s : LoopState) (phase : String) (exec : ExecState) : LoopState :=
  { s with
    context := exec.context
    tick := exec.tick
    setupStepsRan := s.setupStepsRan || decide (phase = "setup" ∧
      (env.plan.phaseSteps env.world.host phase).any fun item ↦ !item.2.skip) }

/-- How the session of a phase went: none was needed, or it returned and its results were mapped
back to the ready entries. -/
def SessionFacts (env : RunEnv) (s : LoopState) (phase : String) (log : PhaseLog) : Prop :=
  (log.session = none ∧ log.executed = [] ∧ log.ready = []) ∨
    ∃ request exitCode captured xml,
      log.session = some (request, .returned exitCode captured xml) ∧
      phaseRequest env s phase log.ready = some request ∧ request.jsonable = true ∧
      env.world.session s.sessions request = .returned exitCode captured xml ∧
      log.executed = applyPytestResults (entriesWithPytestNames log.ready) captured

/-- The request of a phase is about its ready entries, under the names they are given. -/
theorem phaseRequest_eq {ready : List ResolvedEntry} {request : SessionRequest}
    (h : phaseRequest env s phase ready = some request) :
    request.validations = pytestValidations (entriesWithPytestNames ready) ∧
      request.extraPytestArgs = env.plan.options.extraPytestArgs := by
  unfold phaseRequest at h
  split at h
  · cases h
  · cases h
    exact ⟨rfl, rfl⟩

/-- The files of a phase: a stub for what was terminal before the session, pytest's report, and a
stub for executed entries which it does not list. -/
def FileFacts (env : RunEnv) (s : LoopState) (phase : String) (log : PhaseLog) (s' : LoopState) :
    Prop :=
  ∃ before stored after : LoopState,
    stubWhen env s phase "-resolved" log.preResolved = .ok before ∧
    (∃ sessions, stored = storeReport env { before with sessions } phase log.xml) ∧
    readReport env stored (junitName phase "") = .ok log.document ∧
    stubWhen env (listReport stored phase log.document) phase "-deselected"
      (entriesMissingFromJunit log.executed log.document) = .ok after ∧
    s'.files = after.files ∧ s'.junitFiles = after.junitFiles

/-- What an executed phase which ended normally did, with the executor's final state. -/
structure PhaseRan (env : RunEnv) (s : LoopState) (phase : String) (exec : ExecState)
    (log : PhaseLog) (s' : LoopState) : Prop where
  executed : exec = (executeSteps env.world.host (env.plan.phaseSteps env.world.host phase) s.context
    s.tick (decide (phase = "teardown"))).state
  attempts : log.attempts = exec.attempts
  steps : StepsRan (decide (phase = "teardown")) (env.plan.phaseSteps env.world.host phase) exec
  stepPhases : exec.context.stepPhases = s.context.stepPhases
  indexes : log.indexes = (phaseEntries env s phase).map Prod.fst
  decided : decideEntries env (afterSteps env s phase exec)
    ((phaseEntries env s phase).map Prod.snd) = .ok log.decided
  session : SessionFacts env (afterSteps env s phase exec) phase log
  woven : weave log.decided log.executed = .ok log.records
  context : s'.context = exec.context
  resolved : s'.resolved = settle s.resolved (log.indexes.zip log.records)
  overall : s'.overallSuccess = (s.overallSuccess && log.success)
  setup : s'.setupStepsRan = (afterSteps env s phase exec).setupStepsRan
  visits : s'.visits = s.visits ++ [.executed phase log]
  files : FileFacts env (afterSteps env s phase exec) phase log s'
  result :
    (s'.phaseResults = s.phaseResults ∧ env.plan.phaseSteps env.world.host phase = [] ∧
      log.records = [] ∧ log.success = true) ∨
    ∃ result, createPhaseResult env.world.host (phaseEnumForName phase) exec.results
        (log.records.map toResultDict) phase log.exitCode = .ok result ∧
      s'.phaseResults = s.phaseResults ++ [result] ∧ log.success = result.success

/-- The facts of the last stage, from the state in which it starts. -/
structure Reported (env : RunEnv) (s : LoopState) (phase : String) (log : PhaseLog)
    (results : StepResults) (final : PhaseLog) (s' : LoopState) : Prop where
  same : final = { log with
    document := final.document, records := final.records, success := final.success }
  document : readReport env s (junitName phase "") = .ok final.document
  woven : weave log.decided log.executed = .ok final.records
  files : ∃ after, stubWhen env (listReport s phase final.document) phase "-deselected"
    (entriesMissingFromJunit log.executed final.document) = .ok after ∧
      s'.files = after.files ∧ s'.junitFiles = after.junitFiles
  state : s' = { s with
    resolved := settle s.resolved (log.indexes.zip final.records)
    phaseResults := s'.phaseResults
    overallSuccess := s.overallSuccess && final.success
    files := s'.files
    junitFiles := s'.junitFiles
    visits := s.visits ++ [.executed phase final] }
  result :
    (s'.phaseResults = s.phaseResults ∧ env.plan.phaseSteps env.world.host phase = [] ∧
      final.records = [] ∧ final.success = true) ∨
    ∃ result, createPhaseResult env.world.host (phaseEnumForName phase) results
        (final.records.map toResultDict) phase log.exitCode = .ok result ∧
      s'.phaseResults = s.phaseResults ++ [result] ∧ final.success = result.success

theorem reportPhase_next {log : PhaseLog} {results : StepResults} (hsuccess : log.success = true)
    (h : reportPhase env s phase log results = .next s') :
    ∃ final, Reported env s phase log results final s' := by
  unfold reportPhase at h
  cases hread : readReport env s (junitName phase "") with
  | error raised => simp [hread, abort] at h
  | ok document =>
    simp only [hread] at h
    cases hstub : stubWhen env (listReport s phase document) phase "-deselected"
        (entriesMissingFromJunit log.executed document) with
    | error raised => simp [hstub, abort] at h
    | ok after =>
      simp only [hstub] at h
      obtain ⟨files, junitFiles, rfl⟩ : ∃ files junitFiles, after = { s with files, junitFiles } := by
        obtain ⟨listed, hlisted⟩ := listReport_frame s phase document
        obtain ⟨files, junitFiles, rfl⟩ := stubWhen_frame hstub
        exact ⟨files, junitFiles, by rw [hlisted]⟩
      cases hweave : weave log.decided log.executed with
      | error raised => simp [hweave, abort] at h
      | ok records =>
        simp only [hweave] at h
        split at h
        · rename_i hempty
          rw [Bool.and_eq_true, List.isEmpty_iff, List.isEmpty_iff] at hempty
          cases h
          refine ⟨{ log with document, records }, ⟨rfl, hread, hweave, ⟨_, hstub, rfl, rfl⟩, ?_,
            Or.inl ⟨rfl, hempty.1, hempty.2, hsuccess⟩⟩⟩
          simp [hsuccess]
        · cases hcreate : createPhaseResult env.world.host (phaseEnumForName phase) results
              (records.map toResultDict) phase log.exitCode with
          | error raised =>
            have hexit : PhaseLog.exitCode { log with document, records } = log.exitCode := rfl
            simp [hexit, hcreate, abort] at h
          | ok result =>
            have hexit : PhaseLog.exitCode { log with document, records } = log.exitCode := rfl
            simp only [hexit, hcreate] at h
            cases h
            exact ⟨{ log with document, records, success := result.success },
              ⟨rfl, hread, hweave, ⟨_, hstub, rfl, rfl⟩, rfl, Or.inr ⟨result, hcreate, rfl, rfl⟩⟩⟩

theorem runSession_next {log : PhaseLog} {results : StepResults} (hsession : log.session = none)
    (hexecuted : log.executed = []) (hsuccess : log.success = true)
    (h : runSession env s phase log results = .next s') :
    ∃ mid final sessions, mid = { log with session := mid.session, executed := mid.executed } ∧
      SessionFacts env s phase mid ∧
      Reported env (storeReport env { s with sessions } phase mid.xml) phase mid results final s' := by
  unfold runSession at h
  cases hrequest : phaseRequest env s phase log.ready with
  | none =>
    simp only [hrequest] at h
    obtain ⟨final, hfinal⟩ := reportPhase_next hsuccess h
    have hready : log.ready = [] := by
      unfold phaseRequest at hrequest
      split at hrequest
      · rename_i hempty
        exact List.isEmpty_iff.mp hempty
      · cases hrequest
    have hxml : log.xml = none := by rw [PhaseLog.xml, hsession]
    refine ⟨log, final, s.sessions, rfl, Or.inl ⟨hsession, hexecuted, hready⟩, ?_⟩
    have hstore : storeReport env { s with sessions := s.sessions } phase log.xml = s := by
      unfold storeReport
      rw [hxml]
      cases env.tmpdir <;> rfl
    rw [hstore]
    exact hfinal
  | some request =>
    simp only [hrequest] at h
    cases hjson : request.jsonable with
    | false => simp [hjson, abort] at h
    | true =>
      simp only [hjson, Bool.not_true, Bool.false_eq_true, if_false] at h
      cases houtcome : env.world.session s.sessions request with
      | raised raised => simp [houtcome, abort] at h
      | returned exitCode captured xml =>
        simp only [houtcome] at h
        obtain ⟨final, hfinal⟩ := reportPhase_next (by exact hsuccess) h
        exact ⟨{ log with
            session := some (request, .returned exitCode captured xml)
            executed := applyPytestResults (entriesWithPytestNames log.ready) captured },
          final, s.sessions + 1, rfl,
          Or.inr ⟨request, exitCode, captured, xml, rfl, hrequest, hjson, houtcome, rfl⟩, hfinal⟩

theorem validatePhase_next {attempts : List Attempt} {results : StepResults}
    (h : validatePhase env s phase attempts results = .next s') :
    ∃ (log : PhaseLog) (before : LoopState) (mid final : PhaseLog) (sessions : ℕ),
      decideEntries env s ((phaseEntries env s phase).map Prod.snd) = .ok log.decided ∧
      log = { attempts, indexes := (phaseEntries env s phase).map Prod.fst, decided := log.decided } ∧
      stubWhen env s phase "-resolved" log.preResolved = .ok before ∧
      mid = { log with session := mid.session, executed := mid.executed } ∧
      SessionFacts env before phase mid ∧
      Reported env (storeReport env { before with sessions } phase mid.xml) phase mid results
        final s' := by
  unfold validatePhase at h
  simp only at h
  cases hdecide : decideEntries env s ((phaseEntries env s phase).map Prod.snd) with
  | error raised => simp [hdecide, abort] at h
  | ok decided =>
    simp only [hdecide] at h
    split at h
    · simp [abort] at h
    · rename_i before hstub
      obtain ⟨mid, final, sessions, hmid, hfacts, hfinal⟩ := runSession_next rfl rfl rfl h
      exact ⟨_, before, mid, final, sessions, rfl, rfl, hstub, hmid, hfacts, hfinal⟩

theorem nodup_phaseSteps (plan : Plan) (host : Runtime) (phase : String) :
    ((plan.phaseSteps host phase).map Prod.fst).Nodup := by
  unfold Plan.phaseSteps
  refine (List.filter_sublist.map Prod.fst).nodup ?_
  rw [List.map_map]
  change (plan.steps.zipIdx.map Prod.snd).Nodup
  rw [List.zipIdx_map_snd]
  exact List.nodup_range'

/-- The phase of an entry is the same before and after the steps. -/
theorem phaseEntries_afterSteps {exec : ExecState}
    (h : exec.context.stepPhases = s.context.stepPhases) :
    phaseEntries env (afterSteps env s phase exec) phase = phaseEntries env s phase := by
  simp [phaseEntries, openEntries, afterSteps, h]

/-- From the last facts of a phase to all of them. -/
theorem phaseRan_of_validatePhase {exec : ExecState}
    (hexec : exec = (executeSteps env.world.host (env.plan.phaseSteps env.world.host phase)
      s.context s.tick (decide (phase = "teardown"))).state)
    (hsteps : StepsRan (decide (phase = "teardown")) (env.plan.phaseSteps env.world.host phase) exec)
    (hphases : exec.context.stepPhases = s.context.stepPhases)
    (h : validatePhase env (afterSteps env s phase exec) phase exec.attempts exec.results =
      .next s') :
    ∃ log, PhaseRan env s phase exec log s' := by
  obtain ⟨log, before, mid, final, sessions, hdecide, hlog, hstub, hmid, hsession, hfinal⟩ :=
    validatePhase_next h
  rw [phaseEntries_afterSteps hphases] at hdecide hlog
  obtain ⟨session, executed, rfl⟩ : ∃ session executed, mid = { log with session, executed } :=
    ⟨_, _, hmid⟩
  obtain ⟨document, records, success, rfl⟩ : ∃ document records success,
      final = { log with session, executed, document, records, success } :=
    ⟨_, _, _, hfinal.same⟩
  obtain ⟨files, junitFiles, hbefore⟩ := stubWhen_frame hstub
  obtain ⟨stored, hstored⟩ := storeReport_frame env { before with sessions } phase
    (PhaseLog.xml { log with session, executed })
  have hattempts : log.attempts = exec.attempts := by rw [hlog]
  have hindexes : log.indexes = (phaseEntries env s phase).map Prod.fst := by rw [hlog]
  have hstate := hfinal.state
  have hresult := hfinal.result
  rw [hstored, hbefore] at hstate hresult
  rw [hbefore] at hsession
  obtain ⟨after, hafter, hfiles, hjunit⟩ := hfinal.files
  exact ⟨{ log with session, executed, document, records, success },
    { executed := hexec
      attempts := hattempts
      steps := hsteps
      stepPhases := hphases
      indexes := hindexes
      decided := hdecide
      session := hsession
      woven := hfinal.woven
      context := by rw [hstate]; rfl
      resolved := by rw [hstate]; rfl
      overall := by rw [hstate]; rfl
      setup := by rw [hstate]
      visits := by rw [hstate]; rfl
      files := ⟨before, _, after, hstub, ⟨sessions, rfl⟩, hfinal.document, hafter, hfiles, hjunit⟩
      result := hresult }⟩

/-- The facts of a phase which ended normally. -/
theorem executePhase_next (h : executePhase env s phase = .next s') :
    ∃ exec log, PhaseRan env s phase exec log s' := by
  have hspec : StepsEnd (decide (phase = "teardown")) (env.plan.phaseSteps env.world.host phase)
      (executeSteps env.world.host (env.plan.phaseSteps env.world.host phase) s.context s.tick
        (decide (phase = "teardown"))) := executeSteps_spec (nodup_phaseSteps ..) ..
  have hphases := @stepPhases_executeSteps env.world.host
    (env.plan.phaseSteps env.world.host phase) s.context s.tick (decide (phase = "teardown"))
  unfold executePhase at h
  simp only at h
  cases hexec : executeSteps env.world.host (env.plan.phaseSteps env.world.host phase) s.context
      s.tick (decide (phase = "teardown")) with
  | raise raised exec => simp [hexec, abort] at h
  | next exec =>
    rw [hexec] at hspec hphases h
    exact ⟨exec, phaseRan_of_validatePhase (by rw [hexec]; rfl) hspec hphases h⟩
  | halt exec =>
    rw [hexec] at hspec hphases h
    exact ⟨exec, phaseRan_of_validatePhase (by rw [hexec]; rfl) hspec hphases h⟩

/-! ## Every way a phase ends -/

/-- The phase went on or raised, and left one log which continues the given one. -/
structure Logged (s : LoopState) (phase : String) (log : PhaseLog)
    (signal : Loop.Signal PyError LoopState) : Prop where
  goesOn : ∀ after, signal ≠ .halt after
  logged : ∃ final, signal.state.visits = s.visits ++ [.executed phase final] ∧
    final.attempts = log.attempts ∧ final.indexes = log.indexes ∧
    (signal.error?.isSome → final.success = false)

theorem logged_abort {t : LoopState} {log final : PhaseLog} (hvisits : t.visits = s.visits)
    (hattempts : final.attempts = log.attempts) (hindexes : final.indexes = log.indexes)
    (raised : PyError) : Logged s phase log (abort t phase final raised) :=
  ⟨by simp [abort], { final with success := false }, by simp [abort, hvisits], hattempts, hindexes,
    fun _ ↦ rfl⟩

theorem reportPhase_logged (env : RunEnv) (s : LoopState) (phase : String) (log : PhaseLog)
    (results : StepResults) : Logged s phase log (reportPhase env s phase log results) := by
  unfold reportPhase
  cases readReport env s (junitName phase "") with
  | error raised => apply logged_abort <;> rfl
  | ok document =>
    simp only
    cases hstub : stubWhen env (listReport s phase document) phase "-deselected"
        (entriesMissingFromJunit log.executed document) with
    | error raised => apply logged_abort <;> rfl
    | ok after =>
      have hvisits : after.visits = s.visits := by
        obtain ⟨_, hlisted⟩ := listReport_frame s phase document
        obtain ⟨_, _, rfl⟩ := stubWhen_frame hstub
        rw [hlisted]
      simp only
      cases weave log.decided log.executed with
      | error raised =>
        apply logged_abort
        · exact hvisits
        · rfl
        · rfl
      | ok records =>
        simp only
        split
        · exact ⟨by simp, { log with document, records }, by simp [hvisits], rfl, rfl, by simp⟩
        · split
          · apply logged_abort
            · exact hvisits
            · rfl
            · rfl
          · rename_i result _
            exact ⟨by simp, { log with document, records, success := result.success },
              by simp [hvisits], rfl, rfl, by simp⟩

theorem runSession_logged (env : RunEnv) (s : LoopState) (phase : String) (log : PhaseLog)
    (results : StepResults) : Logged s phase log (runSession env s phase log results) := by
  unfold runSession
  cases phaseRequest env s phase log.ready with
  | none => exact reportPhase_logged env s phase log results
  | some request =>
    simp only
    split
    · apply logged_abort <;> rfl
    · cases env.world.session s.sessions request with
      | raised raised => apply logged_abort <;> rfl
      | returned exitCode captured xml =>
        obtain ⟨files, hstored⟩ := storeReport_frame env { s with sessions := s.sessions + 1 } phase xml
        have hreport := reportPhase_logged env
          (storeReport env { s with sessions := s.sessions + 1 } phase xml) phase
          { log with
            session := some (request, .returned exitCode captured xml)
            executed := applyPytestResults (entriesWithPytestNames log.ready) captured } results
        obtain ⟨final, hvisits, hlog⟩ := hreport.logged
        exact ⟨hreport.goesOn, final, hvisits.trans (by rw [hstored]), hlog⟩

/-- The validations of a phase leave a log of the attempts before them and of the entries of the
phase, where these could be decided. -/
theorem validatePhase_logged (env : RunEnv) (s : LoopState) (phase : String)
    (attempts : List Attempt) (results : StepResults) :
    ∃ log : PhaseLog, log.attempts = attempts ∧
      log.indexes.Sublist ((phaseEntries env s phase).map Prod.fst) ∧
      Logged s phase log (validatePhase env s phase attempts results) := by
  unfold validatePhase
  simp only
  cases decideEntries env s ((phaseEntries env s phase).map Prod.snd) with
  | error raised => exact ⟨{ attempts }, rfl, List.nil_sublist _, logged_abort rfl rfl rfl raised⟩
  | ok decided =>
    refine ⟨{ attempts, indexes := (phaseEntries env s phase).map Prod.fst, decided }, rfl,
      List.Sublist.refl _, ?_⟩
    simp only
    split
    · rename_i raised _
      apply logged_abort <;> rfl
    · rename_i before hstub
      obtain ⟨files, junitFiles, rfl⟩ := stubWhen_frame hstub
      have hrun := runSession_logged env { s with files, junitFiles } phase
        { attempts, indexes := (phaseEntries env s phase).map Prod.fst, decided } results
      exact ⟨hrun.goesOn, hrun.logged⟩

/-- However an executed phase ends, it goes on to the next phase or raises, and it leaves one log:
of attempts at the first live steps and of entries which had no record before. -/
theorem executePhase_logged (env : RunEnv) (s : LoopState) (phase : String) :
    ∃ log : PhaseLog,
      (log.attempts.map Attempt.index).Sublist
        ((liveSteps (env.plan.phaseSteps env.world.host phase)).map Prod.fst) ∧
      log.indexes.Sublist ((phaseEntries env s phase).map Prod.fst) ∧
      Logged s phase log (executePhase env s phase) := by
  have hspec : StepsEnd (decide (phase = "teardown")) (env.plan.phaseSteps env.world.host phase)
      (executeSteps env.world.host (env.plan.phaseSteps env.world.host phase) s.context s.tick
        (decide (phase = "teardown"))) := executeSteps_spec (nodup_phaseSteps ..) ..
  have hphases := @stepPhases_executeSteps env.world.host
    (env.plan.phaseSteps env.world.host phase) s.context s.tick (decide (phase = "teardown"))
  have hrest : ∀ exec : ExecState,
      StepsRan (decide (phase = "teardown")) (env.plan.phaseSteps env.world.host phase) exec →
      exec.context.stepPhases = s.context.stepPhases → ∃ log : PhaseLog,
        (log.attempts.map Attempt.index).Sublist
          ((liveSteps (env.plan.phaseSteps env.world.host phase)).map Prod.fst) ∧
        log.indexes.Sublist ((phaseEntries env s phase).map Prod.fst) ∧
        Logged s phase log
          (validatePhase env (afterSteps env s phase exec) phase exec.attempts exec.results) := by
    intro exec hsteps hcontext
    obtain ⟨log, hattempts, hindexes, hlogged⟩ :=
      validatePhase_logged env (afterSteps env s phase exec) phase exec.attempts exec.results
    rw [phaseEntries_afterSteps hcontext] at hindexes
    refine ⟨log, ?_, hindexes, ⟨hlogged.goesOn, hlogged.logged⟩⟩
    have hexact : exec.attempts.map Attempt.index = _ := hsteps.attempts
    rw [hattempts, hexact]
    exact (takeThrough_sublist ..).map Prod.fst
  unfold executePhase
  simp only
  cases hexec : executeSteps env.world.host (env.plan.phaseSteps env.world.host phase) s.context
      s.tick (decide (phase = "teardown")) with
  | raise raised exec =>
    rw [hexec] at hspec
    refine ⟨{ attempts := exec.attempts }, hspec.sublist, List.nil_sublist _, ?_⟩
    apply logged_abort <;> rfl
  | next exec =>
    rw [hexec] at hspec hphases
    exact hrest exec hspec hphases
  | halt exec =>
    rw [hexec] at hspec hphases
    exact hrest exec hspec hphases

end IsvValidation.Orchestrator
