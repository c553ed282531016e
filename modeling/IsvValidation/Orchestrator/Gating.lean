import IsvValidation.Orchestrator.Quiet

/-!
# Which phases run

A phase is gated by the outcome of the phases before it, teardown also by whether setup really ran.
The gates are read off the visits of a run, so that they speak about what happened and not about the
flags of the loop. Where no exception leaves a phase, every occurrence of a phase is visited and
follows its gate, and teardown attempts all of its steps.
-/

namespace IsvValidation.Orchestrator

open Config Host Junit Library Pytest Resolution

variable {env : RunEnv} {s s' : LoopState} {phase : String}

/-- A setup phase with a step that is not switched off was executed in these visits. -/
def SetupRan (plan : Plan) (host : Runtime) (earlier : List Visit) : Prop :=
  liveSteps (plan.phaseSteps host "setup") ≠ [] ∧
    ∃ visit ∈ earlier, visit.phase = "setup" ∧ visit.log?.isSome = true

/-- What a requested phase needs of the visits before it. -/
def MayExecute (plan : Plan) (host : Runtime) (earlier : List Visit) (phase : String) : Prop :=
  if phase = "teardown" then
    (plan.requests "setup" = true → SetupRan plan host earlier) ∧
      ((∀ visit ∈ earlier, visit.failed = false) ∨ plan.options.teardownOnFailure = true)
  else ∀ visit ∈ earlier, visit.failed = false

/-- A visit which executed its phase exactly if it was requested and its gate was open, and then
attempted exactly the steps it should. -/
structure VisitFollows (plan : Plan) (host : Runtime) (earlier : List Visit) (visit : Visit) :
    Prop where
  executed : visit.log?.isSome = true ↔
    plan.requests visit.phase = true ∧ MayExecute plan host earlier visit.phase
  attempts : ∀ log, visit.log? = some log →
    AttemptsExactly (decide (visit.phase = "teardown")) (plan.phaseSteps host visit.phase)
      log.attempts

/-- The occurrence of a phase at a position of the configured phases is executed exactly if it is
requested and its gate is open, and then exactly the steps which should be are attempted. -/
structure FollowsGates (plan : Plan) (host : Runtime) (visits : List Visit) (i : ℕ)
    (phase : String) : Prop where
  executed : (∃ log, visits[i]? = some (.executed phase log)) ↔
    plan.requests phase = true ∧ MayExecute plan host (visits.take i) phase
  attempts : ∀ log, visits[i]? = some (.executed phase log) →
    AttemptsExactly (decide (phase = "teardown")) (plan.phaseSteps host phase) log.attempts

/-- Every occurrence of a configured phase follows its gate. -/
def GatesFollowed (plan : Plan) (host : Runtime) (visits : List Visit) : Prop :=
  ∀ i phase, plan.configPhases[i]? = some phase → FollowsGates plan host visits i phase

/-! ## The flags of the loop -/

/-- The flags of the loop say what its visits did, and every visit followed its gate. -/
structure GatesSoFar (env : RunEnv) (done : List String) (s : LoopState) : Prop where
  phases : s.visits.map Visit.phase = done
  overall : s.overallSuccess = true ↔ ∀ visit ∈ s.visits, visit.failed = false
  setup : s.setupStepsRan = true ↔ SetupRan env.plan env.world.host s.visits
  follows : ∀ i visit, s.visits[i]? = some visit →
    VisitFollows env.plan env.world.host (s.visits.take i) visit

theorem gate_eq_none_iff {done : List String} (h : GatesSoFar env done s) :
    gate env s phase = none ↔ MayExecute env.plan env.world.host s.visits phase := by
  unfold gate MayExecute
  rw [← h.setup, ← h.overall]
  by_cases hphase : phase = "teardown"
  · rw [if_pos hphase, if_pos hphase]
    cases env.plan.requests "setup" <;> cases s.setupStepsRan <;> cases s.overallSuccess <;>
      cases env.plan.options.teardownOnFailure <;> simp
  · rw [if_neg hphase, if_neg hphase]
    cases s.overallSuccess <;> simp

theorem follows_append {plan : Plan} {host : Runtime} {visits : List Visit} {visit : Visit}
    (h : ∀ i other, visits[i]? = some other → VisitFollows plan host (visits.take i) other)
    (hlast : VisitFollows plan host visits visit) :
    ∀ i other, (visits ++ [visit])[i]? = some other →
      VisitFollows plan host ((visits ++ [visit]).take i) other := by
  intro i other hget
  rcases Nat.lt_trichotomy i visits.length with hlt | heq | hgt
  · rw [List.getElem?_append_left hlt] at hget
    rw [List.take_append_of_le_length (Nat.le_of_lt hlt)]
    exact h i other hget
  · rw [heq, List.getElem?_append_right (Nat.le_refl _), Nat.sub_self] at hget
    rw [heq, List.take_left']
    · exact Option.some.inj hget ▸ hlast
    · rfl
  · rw [List.getElem?_eq_none (by simp; omega)] at hget
    cases hget

/-- A visit which executed nothing leaves the flags as they are. -/
theorem GatesSoFar.idle {done : List String} (h : GatesSoFar env done s) {visit : Visit}
    (hphase : visit.phase = phase) (hidle : visit.log? = none)
    (hgate : ¬ (env.plan.requests phase = true ∧
      MayExecute env.plan env.world.host s.visits phase))
    (hvisits : s'.visits = s.visits ++ [visit]) (hoverall : s'.overallSuccess = s.overallSuccess)
    (hsetup : s'.setupStepsRan = s.setupStepsRan) : GatesSoFar env (done ++ [phase]) s' := by
  have hfailed : visit.failed = false := by simp [Visit.failed, hidle]
  constructor
  · rw [hvisits, List.map_append, h.phases, List.map_singleton, hphase]
  · rw [hoverall, h.overall, hvisits]
    simp [or_imp, forall_and, hfailed]
  · rw [hsetup, h.setup, hvisits]
    simp [SetupRan, hidle]
  · rw [hvisits]
    apply follows_append h.follows
    constructor
    · rw [hidle, hphase]
      exact iff_of_false (by simp) hgate
    · intro log hlog
      rw [hidle] at hlog
      cases hlog

theorem GatesSoFar.visited {done : List String} (h : GatesSoFar env done s)
    (hvisited : Visited env s phase s') : GatesSoFar env (done ++ [phase]) s' := by
  cases hvisited with
  | notRequested hrequested hstate =>
    apply h.idle (@rfl _ (Visit.notRequested phase).phase) rfl
    · change ¬ (env.plan.requests phase = true ∧ _)
      rw [hrequested]
      simp
    · rw [hstate]
    · rw [hstate]
    · rw [hstate]
  | skipped reason hrequested hgated hstate =>
    apply h.idle (@rfl _ (Visit.skipped phase reason).phase) rfl
    · rintro ⟨_, hmay⟩
      change MayExecute _ _ _ phase at hmay
      rw [(gate_eq_none_iff h).mpr hmay] at hgated
      cases hgated
    · rw [hstate]
    · rw [hstate]
    · rw [hstate]
  | executed exec log hrequested hgate hran =>
    have hmay := (gate_eq_none_iff h).mp hgate
    constructor
    · rw [hran.visits, List.map_append, h.phases]
      rfl
    · rw [hran.overall, Bool.and_eq_true, h.overall, hran.visits]
      simp [or_imp, forall_and, Visit.failed, Visit.log?]
    · have hlive : (env.plan.phaseSteps env.world.host "setup").any (fun item ↦ !item.2.skip) = true ↔
          liveSteps (env.plan.phaseSteps env.world.host "setup") ≠ [] := by
        rw [liveSteps, Ne, List.filter_eq_nil_iff, List.any_eq_true]
        push Not
        rfl
      rw [hran.setup, hran.visits, afterSteps, Bool.or_eq_true, h.setup]
      by_cases hphase : phase = "setup"
      · subst hphase
        rw [decide_eq_true_eq]
        simp only [true_and]
        rw [hlive]
        simp only [SetupRan, List.mem_append, List.mem_singleton]
        constructor
        · rintro (⟨hsteps, visit, hmem, hvisit⟩ | hsteps)
          · exact ⟨hsteps, visit, Or.inl hmem, hvisit⟩
          · exact ⟨hsteps, _, Or.inr rfl, rfl, rfl⟩
        · rintro ⟨hsteps, _⟩
          exact Or.inr hsteps
      · have hother : ∀ visit ∈ [Visit.executed phase log], visit.phase ≠ "setup" := by
          simpa [Visit.phase] using hphase
        simp only [hphase, false_and, decide_false, Bool.false_eq_true, or_false, SetupRan,
          List.mem_append]
        constructor
        · rintro ⟨hsteps, visit, hmem, hvisit⟩
          exact ⟨hsteps, visit, Or.inl hmem, hvisit⟩
        · rintro ⟨hsteps, visit, hmem | hmem, hsetup, hsome⟩
          · exact ⟨hsteps, visit, hmem, hsetup, hsome⟩
          · exact absurd hsetup (hother visit hmem)
    · rw [hran.visits]
      apply follows_append h.follows
      constructor
      · exact iff_of_true rfl ⟨hrequested, hmay⟩
      · intro found hfound
        cases hfound
        rw [hran.attempts]
        exact hran.steps.attempts

theorem gatesSoFar_initial (env : RunEnv) (context : Context) : GatesSoFar env [] { context } := by
  constructor
  · rfl
  · simp
  · simp [SetupRan]
  · intro i visit hget
    simp at hget

/-! ## Runs which no exception leaves -/

/-- No exception leaves the phase, if it is executed. -/
def PhaseQuiet (env : RunEnv) (phase : String) (s : LoopState) : Prop :=
  env.plan.requests phase = true → gate env s phase = none →
    StepsQuiet env phase s ∧ ValidationsQuiet env phase s

theorem visitPhase_isOk (h : PhaseQuiet env phase s) : ∃ after, visitPhase env phase s = .next after := by
  unfold visitPhase
  cases hrequested : env.plan.requests phase with
  | false => exact ⟨_, rfl⟩
  | true =>
    simp only [Bool.not_true, Bool.false_eq_true, if_false]
    cases hgate : gate env s phase with
    | some reason => exact ⟨_, rfl⟩
    | none =>
      obtain ⟨hsteps, hvalidations⟩ := h hrequested hgate
      exact executePhase_isOk hsteps hvalidations

/-- A quiet loop goes through, and every visit followed its gate. -/
theorem run_quiet {phases : List String} {context : Context}
    (h : Loop.Always (visitPhase env) (PhaseQuiet env) phases { context }) :
    ∃ after, Loop.run (visitPhase env) phases { context } = .next after ∧
      GatesSoFar env phases after := by
  refine h.run_rule (I := GatesSoFar env)
    (Q := fun signal ↦ ∃ after, signal = .next after ∧ GatesSoFar env phases after)
    (gatesSoFar_initial env context) ?_ ?_
  · intro done phase rest before _ hquiet hdone
    obtain ⟨after, hafter⟩ := visitPhase_isOk hquiet
    rw [hafter]
    exact hdone.visited (visitPhase_next hafter)
  · exact fun after hafter ↦ ⟨after, rfl, hafter⟩

/-- Once every phase was visited, the visits are the occurrences of the phases. -/
theorem GatesSoFar.gatesFollowed (h : GatesSoFar env env.plan.configPhases s) :
    GatesFollowed env.plan env.world.host s.visits := by
  intro i phase hphase
  rw [← h.phases, List.getElem?_map, Option.map_eq_some_iff] at hphase
  obtain ⟨visit, hvisit, rfl⟩ := hphase
  have hfollows := h.follows i visit hvisit
  constructor
  · rw [← hfollows.executed, hvisit]
    cases visit <;> simp [Visit.log?, Visit.phase]
  · intro log hlog
    rw [hvisit, Option.some.injEq] at hlog
    apply hfollows.attempts
    rw [hlog]
    rfl

/-! ## Quiet machines -/

theorem collects_executeSteps (host : Runtime) (steps : List (ℕ × StepConfig)) {context : Context}
    (h : context.Collects) (tick : ℕ) (bestEffort : Bool) :
    (executeSteps host steps context tick bestEffort).state.context.Collects := by
  refine Loop.run_invariant (I := fun state : ExecState ↦ state.context.Collects) h ?_
  intro item _ state hstate
  unfold stepBody
  simp only
  split
  · exact hstate
  · cases (executeStep host state.tick state.context item.2).outcome with
    | error raised => exact hstate
    | ok result =>
      obtain ⟨after, hafter, hstored⟩ := hstate.storeOutput item.2 result
      simp only [hafter]
      split <;> exact hstored

theorem Visited.collects (h : Visited env s phase s') (hcollects : s.context.Collects) :
    s'.context.Collects := by
  cases h with
  | notRequested _ hstate => rw [hstate]; exact hcollects
  | skipped reason _ _ hstate => rw [hstate]; exact hcollects
  | executed exec log _ _ hran =>
    rw [hran.context, hran.executed]
    exact collects_executeSteps _ _ hcollects _ _

/-- On the plain machine a command which splits into words is launched and prints nothing. -/
theorem stepQuiet_plain {item : ℕ × StepConfig} {state : ExecState}
    (h : ∃ words, commandWords .plain item.2.command = .ok words) :
    StepQuiet .plain item state ∧ PrintsObject .plain item state := by
  obtain ⟨words, hwords⟩ := h
  have hresolve : ∀ parts cwd, ∃ argv,
      resolvePythonScriptPath (Runtime.plain.scripts state.tick) parts cwd = .ok argv := by
    intro parts cwd
    unfold resolvePythonScriptPath
    split
    · split
      · exact ⟨_, rfl⟩
      · split
        · exact ⟨_, rfl⟩
        · simp only
          split <;> exact ⟨_, rfl⟩
    · exact ⟨_, rfl⟩
  constructor
  · constructor
    · intro args _
      obtain ⟨argv, hargv⟩ := hresolve (words ++ args)
        ((item.2.workingDir.filter (· ≠ "")).getD Runtime.plain.workingDir)
      exact ⟨words, argv, hwords, hargv⟩
    · intro launch
      simp [Runtime.plain]
  · intro launch stdout stderr result hprocess hfinish _ htruthy
    simp only [Runtime.plain, ProcessOutcome.completed.injEq, true_and] at hprocess
    obtain ⟨rfl, rfl⟩ := hprocess
    have hnull : finishStep .plain item.2 0 "" "" =
        .ok { name := item.2.name, success := true, exitCode := 0 } := rfl
    rw [hnull] at hfinish
    cases hfinish
    cases htruthy

/-- Nothing to validate, and every command splits into words. -/
def quietStart (start : RunEnv × Context) : Bool :=
  start.1.plan.entries.isEmpty && start.1.plan.excludeTests.toSet.isOk &&
    (start.1.plan.steps.all fun step ↦ (commandWords .plain step.command).isOk) &&
    match start.2.data.lookup (.str "steps") with
    | some (.dict _) => true
    | _ => false

/-- On the plain machine nothing raises from a quiet start, where the reports can be written. -/
theorem always_quiet_plain {context : Context} {phases : List String} (hhost : env.world.host = .plain)
    (hstart : quietStart (env, context) = true)
    (hreports : ∀ phase ∈ phases, ReportsQuiet env phase) :
    Loop.Always (visitPhase env) (PhaseQuiet env) phases { context } := by
  simp only [quietStart, Bool.and_eq_true, List.isEmpty_iff, List.all_eq_true] at hstart
  obtain ⟨⟨⟨hentries, hexclude⟩, hcommands⟩, hlookup⟩ := hstart
  have hcontext : context.Collects := by
    unfold Context.Collects
    split at hlookup
    · exact ⟨_, by assumption⟩
    · cases hlookup
  have hsteps : ∀ phase, ∀ item ∈ env.plan.phaseSteps env.world.host phase,
      ∃ words, commandWords .plain item.2.command = .ok words := by
    intro phase item hitem
    obtain ⟨entry, hentry, rfl⟩ := List.mem_map.mp (List.mem_filter.mp hitem).1
    apply exists_of_isOk
    apply hcommands
    obtain ⟨hlt, hstep⟩ := List.mem_zipIdx' hentry
    rw [hstep]
    exact List.getElem_mem hlt
  have hquiet : ∀ phase (s : LoopState), Loop.Always
      (stepBody env.world.host (decide (phase = "teardown")))
      (fun item state ↦ StepQuiet env.world.host item state ∧ PrintsObject env.world.host item state)
      (env.plan.phaseSteps env.world.host phase) { context := s.context, tick := s.tick } := by
    intro phase s
    refine Loop.Always.of_invariant (I := fun _ ↦ True) trivial (fun _ _ _ _ _ _ ↦ trivial) ?_
    intro item hitem state _
    rw [hhost] at hitem ⊢
    exact stepQuiet_plain (hsteps phase item (by rw [hhost]; exact hitem))
  refine Loop.Always.of_invariant (I := fun s : LoopState ↦ s.context.Collects) hcontext ?_ ?_
  · exact fun phase _ s s' hs hvisit ↦ (visitPhase_next hvisit).collects hs
  · intro phase hphase s hs _ _
    constructor
    · exact ⟨hs, (hquiet phase s).mono fun item state h _ ↦ h.1⟩
    · have hnone : phaseEntries env s phase = [] := by
        simp [phaseEntries, openEntries, hentries]
      constructor
      · exact (hquiet phase s).mono fun item state h _ ↦ h.2
      · exact exists_of_isOk hexclude
      · exact hreports phase hphase
      · intro exec decided request _ hdecided hrequest
        have hlength := (decideEntries_forall₂ hdecided).length_eq
        rw [hnone, List.map_nil, List.length_nil, eq_comm, List.length_eq_zero_iff] at hlength
        rw [hlength] at hrequest
        cases hrequest

/-- A report directory of a file system: a file name has at most 255 bytes, and no slash. -/
def ReportFiles.named : ReportFiles :=
  { ReportFiles.plain with
    stat := fun name ↦ if name.utf8ByteSize ≤ 255 then .ok () else .error (.osError "File name too long")
    openWrite := fun name ↦
      if name.utf8ByteSize ≤ 255 ∧ '/' ∉ name.toList then .ok () else .error (.osError "No such file") }

/-- The plain machine with such a directory for the reports. -/
def World.filing : World := { World.plain with reports := .named }

theorem reportsQuiet_filing (hworld : env.world = .filing) :
    ∀ phase ∈ ["setup", "teardown"], ReportsQuiet env phase := by
  intro phase hphase
  have hfiles : ∀ phase ∈ ["setup", "teardown"],
      ReportFiles.named.stat (junitName phase "") = .ok () ∧
        ∀ suffix ∈ stubSuffixes, ReportFiles.named.openWrite (junitName phase suffix) = .ok () := by
    decide +kernel
  have ⟨hreport, hstubs⟩ := hfiles phase hphase
  exact ⟨fun _ ↦ hworld ▸ hreport, fun _ ↦ hworld ▸ hstubs⟩

/-! ## The gates -/

/-- Where no exception leaves a phase, every configured occurrence of a phase is executed exactly if
it is requested and its gate is open, and attempts exactly the steps it should. -/
theorem phases_follow_gates {world : World} {config : RunConfig} {options : RunOptions}
    {context : Context} (hstart : Started world config options env context)
    (hquiet : Loop.Always (visitPhase env) (PhaseQuiet env) env.plan.configPhases { context }) :
    GatesFollowed env.plan env.world.host (run world config options).visits := by
  obtain ⟨after, hrun, hgates⟩ := run_quiet hquiet
  have hvisits : (run world config options).visits = after.visits := by
    rw [hstart.run_eq, visits_runPlan, runPhases, hrun]
    rfl
  rw [hvisits]
  exact hgates.gatesFollowed

theorem phases_follow_gates_filing :
    ∃ env context, Started .filing (.twoPhases "check.sh") { junitxml := some "report.xml" } env context ∧
      env.tmpdir.isSome = true ∧ GatesFollowed env.plan env.world.host
        (run .filing (.twoPhases "check.sh") { junitxml := some "report.xml" }).visits := by
  obtain ⟨env, context, hstart, hplan⟩ := exists_started .filing (.twoPhases "check.sh") { junitxml := some "report.xml" }
    (fun start ↦ quietStart start && start.1.tmpdir.isSome &&
      start.1.plan.configPhases == ["setup", "teardown"]) (by decide +kernel)
  simp only [Bool.and_eq_true, beq_iff_eq] at hplan
  obtain ⟨⟨hquiet, htmpdir⟩, hphases⟩ := hplan
  refine ⟨env, context, hstart, htmpdir, phases_follow_gates hstart ?_⟩
  rw [hphases]
  exact always_quiet_plain (congrArg World.host hstart.world) hquiet (reportsQuiet_filing hstart.world)

/-- A command with an unbalanced quote raises in setup, and teardown is not visited although its
gate is open. -/
theorem gates_not_followed :
    accepted .plain (.twoPhases "check.sh 'quota") = true ∧
      ∃ env context, Started .plain (.twoPhases "check.sh 'quota") {} env context ∧
        ¬ GatesFollowed env.plan env.world.host
          (run .plain (.twoPhases "check.sh 'quota") {}).visits := by
  refine ⟨by decide +kernel, ?_⟩
  obtain ⟨env, context, hstart, hplan⟩ := exists_started .plain (.twoPhases "check.sh 'quota") {}
    (fun start ↦ start.1.plan.configPhases[1]? == some "teardown" &&
      start.1.plan.requests "teardown" && start.1.plan.options.teardownOnFailure &&
      !(liveSteps (start.1.plan.phaseSteps start.1.world.host "setup")).isEmpty) (by decide +kernel)
  refine ⟨env, context, hstart, fun hfollowed ↦ ?_⟩
  simp only [Bool.and_eq_true, beq_iff_eq, Bool.not_eq_true', List.isEmpty_eq_false_iff] at hplan
  obtain ⟨⟨⟨hphase, hrequested⟩, hflag⟩, hlive⟩ := hplan
  have hvisits : ((run .plain (.twoPhases "check.sh 'quota") {}).visits[1]?).isNone = true ∧
      ∃ visit ∈ (run .plain (.twoPhases "check.sh 'quota") {}).visits.take 1,
        visit.phase = "setup" ∧ visit.log?.isSome = true := by decide +kernel
  have hmay : MayExecute env.plan env.world.host
      ((run .plain (.twoPhases "check.sh 'quota") {}).visits.take 1) "teardown" := by
    rw [MayExecute, if_pos rfl]
    exact ⟨fun _ ↦ ⟨hlive, hvisits.2⟩, Or.inr hflag⟩
  obtain ⟨log, hlog⟩ := (hfollowed 1 "teardown" hphase).executed.mpr ⟨hrequested, hmay⟩
  rw [Option.isNone_iff_eq_none.mp hvisits.1] at hlog
  cases hlog

/-! ## Teardown -/

/-- If a step of setup was attempted, then every live step of teardown was. -/
def TeardownGuaranteed (plan : Plan) (host : Runtime) (visits : List Visit) : Prop :=
  (∃ visit ∈ visits, visit.phase = "setup" ∧ visit.attempts ≠ []) →
    ∀ item ∈ liveSteps (plan.phaseSteps host "teardown"),
      ∃ visit ∈ visits, ∃ attempt ∈ visit.attempts, attempt.index = item.1

instance (plan : Plan) (host : Runtime) (visits : List Visit) :
    Decidable (TeardownGuaranteed plan host visits) :=
  inferInstanceAs (Decidable ((∃ visit ∈ visits, visit.phase = "setup" ∧ visit.attempts ≠ []) →
    ∀ item ∈ liveSteps (plan.phaseSteps host "teardown"),
      ∃ visit ∈ visits, ∃ attempt ∈ visit.attempts, attempt.index = item.1))

/-- The phase does not stop at a failed step where teardown is best effort. -/
theorem attemptsExactly_bestEffort {steps : List (ℕ × StepConfig)} {attempts : List Attempt}
    (h : AttemptsExactly true steps attempts) :
    attempts.map Attempt.index = (liveSteps steps).map Prod.fst := by
  have hexact : attempts.map Attempt.index = _ := h
  rw [hexact, takeThrough_eq_self]
  intro item _
  simp [stopsPhase]

/-- After a failure, setup is gated. -/
theorem visitPhase_setup (env : RunEnv) (hfailed : s.overallSuccess = false) :
    ∃ visit : Visit, (visitPhase env "setup" s).state.visits = s.visits ++ [visit] ∧
      visit.attempts = [] := by
  have hgate : gate env s "setup" = some "previous phase failed" := by
    simp [gate, hfailed]
  unfold visitPhase
  rw [hgate]
  split
  · exact ⟨.notRequested "setup", rfl, rfl⟩
  · exact ⟨.skipped "setup" "previous phase failed", rfl, rfl⟩

theorem Visited.overallSuccess (h : Visited env s phase s') (hfailed : s.overallSuccess = false) :
    s'.overallSuccess = false := by
  cases h with
  | notRequested _ hstate => rw [hstate]; exact hfailed
  | skipped reason _ _ hstate => rw [hstate]; exact hfailed
  | executed exec log _ _ hran => rw [hran.overall, hfailed, Bool.false_and]

/-- Once a phase has failed, no step of setup is attempted any more. -/
theorem no_setup_after_failure (env : RunEnv) (phases : List String)
    (hfailed : s.overallSuccess = false) :
    ∀ visit ∈ (Loop.run (visitPhase env) phases s).state.visits,
      visit ∈ s.visits ∨ (visit.phase = "setup" → visit.attempts = []) := by
  induction phases generalizing s with
  | nil => exact fun visit hmem ↦ Or.inl hmem
  | cons phase rest ih =>
    have hvisit : ∀ visit ∈ (visitPhase env phase s).state.visits,
        visit ∈ s.visits ∨ (visit.phase = "setup" → visit.attempts = []) := by
      intro visit hmem
      by_cases hphase : phase = "setup"
      · obtain ⟨added, hvisits, hnone⟩ := visitPhase_setup env hfailed
        rw [hphase, hvisits, List.mem_append, List.mem_singleton] at hmem
        apply hmem.imp_right
        rintro rfl _
        exact hnone
      · obtain ⟨added, hvisits, hadded, _⟩ := visitPhase_visits env phase s
        rw [hvisits, List.mem_append, List.mem_singleton] at hmem
        apply hmem.imp_right
        intro heq hsetup
        exact absurd (hadded.symm.trans (heq ▸ hsetup)) hphase
    rw [Loop.run_cons]
    cases hbody : visitPhase env phase s with
    | next after =>
      rw [hbody] at hvisit
      intro visit hmem
      rcases ih ((visitPhase_next hbody).overallSuccess hfailed) visit hmem with hold | hnew
      · exact hvisit visit hold
      · exact Or.inr hnew
    | halt after => rw [hbody] at hvisit; exact hvisit
    | raise raised after => rw [hbody] at hvisit; exact hvisit

/-- Whatever happens to its validations, a teardown whose steps are quiet attempts all of them. -/
theorem visitPhase_teardown (hrequested : env.plan.requests "teardown" = true)
    (hgate : gate env s "teardown" = none) (hquiet : StepsQuiet env "teardown" s) :
    ∃ log : PhaseLog, Visit.executed "teardown" log ∈ (visitPhase env "teardown" s).state.visits ∧
      log.attempts.map Attempt.index =
        (liveSteps (env.plan.phaseSteps env.world.host "teardown")).map Prod.fst := by
  have hspec : StepsEnd true (env.plan.phaseSteps env.world.host "teardown")
      (executeSteps env.world.host (env.plan.phaseSteps env.world.host "teardown") s.context s.tick
        true) := executeSteps_spec (nodup_phaseSteps ..) ..
  have hraise := hquiet.executeSteps.1
  have hrest : ∀ exec : ExecState,
      StepsRan true (env.plan.phaseSteps env.world.host "teardown") exec →
      ∃ log : PhaseLog, Visit.executed "teardown" log ∈ (validatePhase env
        (afterSteps env s "teardown" exec) "teardown" exec.attempts exec.results).state.visits ∧
        log.attempts.map Attempt.index =
          (liveSteps (env.plan.phaseSteps env.world.host "teardown")).map Prod.fst := by
    intro exec hran
    obtain ⟨log, hattempts, _, hlogged⟩ := validatePhase_logged env
      (afterSteps env s "teardown" exec) "teardown" exec.attempts exec.results
    obtain ⟨final, hvisits, hfinal, _⟩ := hlogged.logged
    refine ⟨final, by rw [hvisits]; simp, ?_⟩
    rw [hfinal, hattempts]
    exact attemptsExactly_bestEffort hran.attempts
  unfold visitPhase
  rw [hrequested, hgate]
  simp only [Bool.not_true, Bool.false_eq_true, if_false]
  unfold executePhase
  simp only [decide_true] at hraise ⊢
  cases hexec : executeSteps env.world.host (env.plan.phaseSteps env.world.host "teardown") s.context
      s.tick true with
  | raise raised exec => rw [hexec] at hraise; cases hraise
  | next exec => rw [hexec] at hspec; exact hrest exec hspec
  | halt exec => rw [hexec] at hspec; exact hrest exec hspec

/-- Setup was executed where one of its steps was attempted and no exception left a phase before
teardown. -/
theorem setupRan_of_attempted {before after : List String} {context : Context}
    (hrequested : env.plan.requests "setup" = true) (hsetup : "setup" ∈ before)
    (hrun : Loop.run (visitPhase env) before { context } = .next s)
    (hgates : GatesSoFar env before s)
    (hattempted : ∃ visit ∈ (Loop.run (visitPhase env) (before ++ after) { context }).state.visits,
      visit.phase = "setup" ∧ visit.attempts ≠ []) :
    SetupRan env.plan env.world.host s.visits := by
  obtain ⟨visit, hvisit, hphase, hattempts⟩ := hattempted
  have hlive : liveSteps (env.plan.phaseSteps env.world.host "setup") ≠ [] := by
    intro hnone
    have hsublist := attempts_sublist env (before ++ after) context visit hvisit
    rw [hphase, hnone, List.map_nil, List.sublist_nil, List.map_eq_nil_iff] at hsublist
    exact hattempts hsublist
  refine ⟨hlive, ?_⟩
  cases hoverall : s.overallSuccess with
  | true =>
    obtain ⟨i, hi, hsetup⟩ := List.getElem_of_mem hsetup
    have hlength : i < s.visits.length := by
      have hlengths := congrArg List.length hgates.phases
      rw [List.length_map] at hlengths
      omega
    have hat : s.visits[i].phase = "setup" := by
      rw [← hsetup, ← List.getElem_map Visit.phase (h := by simpa using hlength)]
      congr 1
      exact hgates.phases
    have hfollows := hgates.follows i s.visits[i] (List.getElem?_eq_getElem hlength)
    refine ⟨s.visits[i], List.getElem_mem hlength, hat, hfollows.executed.mpr ?_⟩
    rw [hat]
    refine ⟨hrequested, ?_⟩
    rw [MayExecute, if_neg (by decide)]
    exact fun earlier hmem ↦ hgates.overall.mp hoverall earlier (List.mem_of_mem_take hmem)
  | false =>
    rw [Loop.run_append, hrun] at hvisit
    rcases no_setup_after_failure env after hoverall visit hvisit with hmem | hnone
    · refine ⟨visit, hmem, hphase, ?_⟩
      cases hlog : visit.log? with
      | none => simp [Visit.attempts, hlog] at hattempts
      | some log => rfl
    · exact absurd (hnone hphase) hattempts

/-- Teardown attempts all its steps once a step of setup was attempted, provided that a teardown
comes after setup, that no exception leaves a phase before it, and that none leaves its steps. -/
theorem teardown_attempted {world : World} {config : RunConfig} {options : RunOptions}
    {context : Context} {before after : List String}
    (hstart : Started world config options env context)
    (hsetup : env.plan.requests "setup" = true) (hteardown : env.plan.requests "teardown" = true)
    (hflag : env.plan.options.teardownOnFailure = true)
    (hphases : env.plan.configPhases = before ++ "teardown" :: after) (hmem : "setup" ∈ before)
    (hbefore : Loop.Always (visitPhase env) (PhaseQuiet env) before { context })
    (hsteps : ∀ s, Loop.run (visitPhase env) before { context } = .next s →
      gate env s "teardown" = none → StepsQuiet env "teardown" s) :
    TeardownGuaranteed env.plan env.world.host (run world config options).visits := by
  rw [hstart.run_eq, visits_runPlan, runPhases, hphases]
  intro hattempted item hitem
  obtain ⟨s, hrun, hgates⟩ := run_quiet hbefore
  have hran := setupRan_of_attempted hsetup hmem hrun hgates hattempted
  have hgate : gate env s "teardown" = none := by
    rw [gate_eq_none_iff hgates, MayExecute, if_pos rfl]
    exact ⟨fun _ ↦ hran, Or.inr hflag⟩
  obtain ⟨log, hlog, hattempts⟩ := visitPhase_teardown hteardown hgate (hsteps s hrun hgate)
  have hfinal : Visit.executed "teardown" log ∈
      (Loop.run (visitPhase env) (before ++ "teardown" :: after) { context }).state.visits := by
    rw [Loop.run_append, hrun]
    simp only [Loop.run_cons]
    cases hbody : visitPhase env "teardown" s with
    | next between =>
      rw [hbody] at hlog
      exact (visits_grow env after between).subset hlog
    | halt between => rw [hbody] at hlog; exact hlog
    | raise raised between => rw [hbody] at hlog; exact hlog
  have hindex : item.1 ∈ log.attempts.map Attempt.index := by
    rw [hattempts]
    exact List.mem_map_of_mem hitem
  obtain ⟨attempt, hattempt, hsame⟩ := List.mem_map.mp hindex
  exact ⟨_, hfinal, attempt, hattempt, hsame⟩

theorem teardown_attempted_filing :
    ∃ env context, Started .filing (.twoPhases "check.sh") { junitxml := some "report.xml" } env context ∧
      env.tmpdir.isSome = true ∧ TeardownGuaranteed env.plan env.world.host
        (run .filing (.twoPhases "check.sh") { junitxml := some "report.xml" }).visits := by
  obtain ⟨env, context, hstart, hplan⟩ := exists_started .filing (.twoPhases "check.sh") { junitxml := some "report.xml" }
    (fun start ↦ quietStart start && start.1.tmpdir.isSome && start.1.plan.requests "setup" &&
      start.1.plan.requests "teardown" && start.1.plan.options.teardownOnFailure &&
      start.1.plan.configPhases == ["setup", "teardown"]) (by decide +kernel)
  simp only [Bool.and_eq_true, beq_iff_eq] at hplan
  obtain ⟨⟨⟨⟨⟨hquiet, htmpdir⟩, hsetup⟩, hteardown⟩, hflag⟩, hphases⟩ := hplan
  have hreports := reportsQuiet_filing hstart.world
  have hhost : env.world.host = .plain := congrArg World.host hstart.world
  have hbefore : Loop.Always (visitPhase env) (PhaseQuiet env) ["setup"] { context } :=
    always_quiet_plain hhost hquiet fun phase hmem ↦
      hreports phase (List.mem_cons.mpr (.inl (List.mem_singleton.mp hmem)))
  have hall : Loop.Always (visitPhase env) (PhaseQuiet env) (["setup"] ++ ["teardown"]) { context } :=
    always_quiet_plain hhost hquiet hreports
  have hphases : env.plan.configPhases = ["setup"] ++ "teardown" :: [] := hphases
  refine ⟨env, context, hstart, htmpdir,
    teardown_attempted hstart hsetup hteardown hflag hphases (by simp) hbefore ?_⟩
  intro s hrun hgate
  rw [Loop.run_cons] at hrun
  have hafter := hall.2
  cases hvisit : visitPhase env "setup" { context } with
  | next after =>
    rw [hvisit] at hrun hafter
    cases hrun
    exact (hafter.1 hteardown hgate).1
  | halt after => rw [hvisit] at hrun; cases hrun
  | raise error after => rw [hvisit] at hrun; cases hrun

/-- After an unbalanced quote in the second setup step, teardown is never attempted. -/
theorem teardown_lost :
    accepted .plain (.twoPhases "check.sh 'quota") = true ∧
      ∃ env context, Started .plain (.twoPhases "check.sh 'quota") {} env context ∧
        env.plan.requests "setup" = true ∧ env.plan.requests "teardown" = true ∧
        env.plan.options.teardownOnFailure = true ∧
        ¬ TeardownGuaranteed env.plan env.world.host
          (run .plain (.twoPhases "check.sh 'quota") {}).visits := by
  refine ⟨by decide +kernel, ?_⟩
  obtain ⟨env, context, hstart, hplan⟩ := exists_started .plain (.twoPhases "check.sh 'quota") {}
    (fun start ↦ start.1.plan.requests "setup" && start.1.plan.requests "teardown" &&
      start.1.plan.options.teardownOnFailure &&
      !decide (TeardownGuaranteed start.1.plan start.1.world.host
        (run .plain (.twoPhases "check.sh 'quota") {}).visits)) (by decide +kernel)
  simp only [Bool.and_eq_true, Bool.not_eq_true', decide_eq_false_iff_not] at hplan
  obtain ⟨⟨⟨hsetup, hteardown⟩, hflag⟩, hlost⟩ := hplan
  exact ⟨env, context, hstart, hsetup, hteardown, hflag, hlost⟩

end IsvValidation.Orchestrator
