import IsvValidation.Orchestrator.PhaseRun

/-!
# Whole runs

The inversion of the phase loop, of the pass after it and of `run` itself. A finished run went
through the loop without an exception, so an invariant of the loop which every visited phase keeps
holds of the state before the last pass.
-/

namespace IsvValidation.Orchestrator

open Config Host Junit Library Pytest Resolution

variable {env : RunEnv} {s s' : LoopState} {phase : String}

/-! ## One iteration -/

/-- What one iteration of the phase loop did, if it did not raise. -/
inductive Visited (env : RunEnv) (s : LoopState) (phase : String) (s' : LoopState) : Prop where
  | notRequested (requested : env.plan.requests phase = false)
      (state : s' = { s with visits := s.visits ++ [.notRequested phase] })
  | skipped (reason : String) (requested : env.plan.requests phase = true)
      (gated : gate env s phase = some reason)
      (state : s' = { s with
        phaseResults := s.phaseResults ++
          [{ phase := phaseEnumForName phase, success := true, message := s!"SKIPPED: {reason}" }]
        visits := s.visits ++ [.skipped phase reason] })
  | executed (exec : ExecState) (log : PhaseLog) (requested : env.plan.requests phase = true)
      (open_ : gate env s phase = none) (ran : PhaseRan env s phase exec log s')

theorem visitPhase_next (h : visitPhase env phase s = .next s') : Visited env s phase s' := by
  unfold visitPhase at h
  cases hrequested : env.plan.requests phase with
  | false =>
    simp only [hrequested, Bool.not_false, if_true, Loop.Signal.next.injEq] at h
    exact .notRequested hrequested h.symm
  | true =>
    simp only [hrequested, Bool.not_true, Bool.false_eq_true, if_false] at h
    cases hgate : gate env s phase with
    | some reason =>
      simp only [hgate, Loop.Signal.next.injEq] at h
      exact .skipped reason hrequested hgate h.symm
    | none =>
      simp only [hgate] at h
      obtain ⟨exec, log, hran⟩ := executePhase_next h
      exact .executed exec log hrequested hgate hran

theorem visitPhase_goesOn (env : RunEnv) (phase : String) (s after : LoopState) :
    visitPhase env phase s ≠ .halt after := by
  unfold visitPhase
  split
  · simp
  · split
    · simp
    · obtain ⟨log, _, _, hlogged⟩ := executePhase_logged env s phase
      exact hlogged.goesOn after

/-- Whichever way an iteration ends, it adds one visit, of a phase whose attempts were at its first
live steps and whose entries had no record before. -/
theorem visitPhase_visits (env : RunEnv) (phase : String) (s : LoopState) :
    ∃ visit : Visit, (visitPhase env phase s).state.visits = s.visits ++ [visit] ∧
      visit.phase = phase ∧
      (visit.attempts.map Attempt.index).Sublist
        ((liveSteps (env.plan.phaseSteps env.world.host phase)).map Prod.fst) ∧
      visit.handed.Sublist ((phaseEntries env s phase).map Prod.fst) := by
  unfold visitPhase
  split
  · exact ⟨.notRequested phase, rfl, rfl, List.nil_sublist _, List.nil_sublist _⟩
  · split
    · rename_i reason _
      exact ⟨.skipped phase reason, rfl, rfl, List.nil_sublist _, List.nil_sublist _⟩
    · obtain ⟨log, hattempts, hindexes, hlogged⟩ := executePhase_logged env s phase
      obtain ⟨final, hvisits, hfinal, hsame, _⟩ := hlogged.logged
      refine ⟨.executed phase final, hvisits, rfl, ?_, ?_⟩
      · change (final.attempts.map Attempt.index).Sublist _
        rwa [hfinal]
      · change final.handed.Sublist _
        rw [← hsame] at hindexes
        refine List.Sublist.trans ?_ hindexes
        unfold PhaseLog.handed
        split
        · exact (List.filter_sublist.map Prod.fst).trans (map_fst_zip_sublist ..)
        · exact List.nil_sublist _

/-! ## The loop -/

/-- Visits are added at the end. -/
theorem visits_grow (env : RunEnv) (phases : List String) (s : LoopState) :
    s.visits <+: (Loop.run (visitPhase env) phases s).state.visits := by
  refine Loop.run_invariant (I := fun after : LoopState ↦ s.visits <+: after.visits) (List.prefix_refl _) ?_
  intro phase _ between hbetween
  obtain ⟨visit, hvisits, _⟩ := visitPhase_visits env phase between
  rw [hvisits]
  exact hbetween.trans (List.prefix_append ..)

/-- The attempts of every visit are at the first live steps of its phase. -/
theorem attempts_sublist (env : RunEnv) (phases : List String) (context : Context) :
    ∀ visit ∈ (Loop.run (visitPhase env) phases { context }).state.visits,
      (visit.attempts.map Attempt.index).Sublist
        ((liveSteps (env.plan.phaseSteps env.world.host visit.phase)).map Prod.fst) := by
  refine Loop.run_invariant (I := fun s : LoopState ↦ ∀ visit ∈ s.visits,
    (visit.attempts.map Attempt.index).Sublist
      ((liveSteps (env.plan.phaseSteps env.world.host visit.phase)).map Prod.fst)) (by simp) ?_
  intro phase _ s hs visit hmem
  obtain ⟨added, hvisits, hphase, hattempts, _⟩ := visitPhase_visits env phase s
  rw [hvisits, List.mem_append, List.mem_singleton] at hmem
  rcases hmem with hold | rfl
  · exact hs visit hold
  · rw [hphase]
    exact hattempts

theorem runPhases_goesOn (env : RunEnv) (context : Context) (after : LoopState) :
    runPhases env context ≠ .halt after := by
  suffices h : ∀ phases s, Loop.run (visitPhase env) phases s ≠ .halt after from h _ _
  intro phases
  induction phases with
  | nil => simp
  | cons phase rest ih =>
    intro s
    rw [Loop.run_cons]
    cases hvisit : visitPhase env phase s with
    | next between => exact ih between
    | halt between => exact absurd hvisit (visitPhase_goesOn env phase s between)
    | raise raised between => simp

/-- What every visited phase keeps holds when the loop is through; `P` holds before each phase. -/
theorem runPhases_always {P : String → LoopState → Prop} {I : List String → LoopState → Prop}
    {context : Context}
    (halways : Loop.Always (visitPhase env) P env.plan.configPhases { context })
    (initial : I [] { context })
    (step : ∀ done phase s s', P phase s → I done s → Visited env s phase s' →
      I (done ++ [phase]) s')
    (h : runPhases env context = .next s) : I env.plan.configPhases s := by
  have hrun : ∀ s, runPhases env context = .next s → I env.plan.configPhases s := by
    unfold runPhases
    refine halways.run_rule (I := I) (Q := fun signal ↦ ∀ s, signal = .next s →
      I env.plan.configPhases s) initial ?_ ?_
    · intro done item rest before _ hP hdone
      cases hvisit : visitPhase env item before with
      | next after => exact step done item before after hP hdone (visitPhase_next hvisit)
      | halt after => simp
      | raise raised after => simp
    · intro final hfinal s heq
      cases heq
      exact hfinal
  exact hrun s h

theorem runPhases_rule {I : List String → LoopState → Prop} {context : Context}
    (initial : I [] { context })
    (step : ∀ done phase s s', I done s → Visited env s phase s' → I (done ++ [phase]) s')
    (h : runPhases env context = .next s) : I env.plan.configPhases s := by
  have htrivial : Loop.Always (visitPhase env) (fun _ _ ↦ True) env.plan.configPhases { context } :=
    .of_invariant (I := fun _ ↦ True) trivial (fun _ _ _ _ _ _ ↦ trivial) fun _ _ _ _ ↦ trivial
  exact runPhases_always htrivial initial (fun done phase s s' _ ↦ step done phase s s') h

/-! ## The pass after the loop -/

/-- Writing the stub files of unexecuted entries changes the files and nothing else. -/
theorem writeUnexecuted_frame {groups : List (String × List ResolvedEntry)}
    (h : writeUnexecuted env groups s = .ok s') :
    ∃ files junitFiles, s' = { s with files, junitFiles } := by
  induction groups generalizing s with
  | nil =>
    cases h
    exact ⟨s'.files, s'.junitFiles, rfl⟩
  | cons group rest ih =>
    unfold writeUnexecuted at h
    rw [List.foldlM_cons] at h
    cases hwrite : writeStub env s group.1 "-unexecuted" group.2 with
    | error raised => rw [hwrite] at h; cases h
    | ok between =>
      rw [hwrite] at h
      obtain ⟨files, junitFiles, rfl⟩ := ih (s := between) h
      unfold writeStub at hwrite
      cases hopen : env.world.reports.openWrite (junitName group.1 "-unexecuted") with
      | error raised => rw [hopen] at hwrite; cases hwrite
      | ok _ =>
        rw [hopen] at hwrite
        cases hwrite
        exact ⟨_, _, rfl⟩

/-- What the pass over the remaining entries did. -/
structure Remaining (env : RunEnv) (s : LoopState) (records : List ResolvedEntry)
    (s' : LoopState) : Prop where
  decided : ∃ decided, decideEntries env s ((openEntries env s).map Prod.snd) = .ok decided ∧
    records = decided.map (terminalizeLeftover env s.context.stepPhases.get?)
  files : (env.tmpdir.isNone ∧ s'.files = s.files ∧ s'.junitFiles = s.junitFiles) ∨
    env.tmpdir.isSome ∧ ∃ after,
      writeUnexecuted env (byPhase s.context.stepPhases.get? records).entries
        { s with resolved := s'.resolved } = .ok after ∧
      s'.files = after.files ∧ s'.junitFiles = after.junitFiles
  state : s' = { s with
    resolved := settle s.resolved (((openEntries env s).map Prod.fst).zip records)
    phaseResults := s.phaseResults ++
      (byPhase s.context.stepPhases.get? records).entries.map resolutionOnlyResult
    overallSuccess := s.overallSuccess && records.all entrySuccess
    files := s'.files
    junitFiles := s'.junitFiles }

theorem resolveRemaining_ok (h : resolveRemaining env s = .ok s') :
    (openEntries env s = [] ∧ s' = s) ∨
      openEntries env s ≠ [] ∧ ∃ records, Remaining env s records s' := by
  unfold resolveRemaining at h
  simp only at h
  split at h
  · rename_i hempty
    cases h
    exact Or.inl ⟨List.isEmpty_iff.mp hempty, rfl⟩
  · rename_i hopen
    refine Or.inr ⟨fun hempty ↦ hopen (List.isEmpty_iff.mpr hempty), ?_⟩
    cases hdecide : decideEntries env s ((openEntries env s).map Prod.snd) with
    | error raised => rw [hdecide] at h; cases h
    | ok decided =>
      rw [hdecide] at h
      simp only [bind, Except.bind, pure, Except.pure] at h
      cases htmp : env.tmpdir with
      | none =>
        simp only [htmp, Option.isNone_none, if_true] at h
        cases h
        exact ⟨_, ⟨decided, hdecide, rfl⟩, Or.inl ⟨by rw [htmp]; rfl, rfl, rfl⟩, rfl⟩
      | some dir =>
        simp only [htmp, Option.isNone_some, Bool.false_eq_true, if_false] at h
        split at h
        · cases h
        · rename_i after hfiles
          cases h
          obtain ⟨files, junitFiles, rfl⟩ := writeUnexecuted_frame hfiles
          exact ⟨_, ⟨decided, hdecide, rfl⟩,
            Or.inr ⟨by rw [htmp]; rfl, _, hfiles, rfl, rfl⟩, rfl⟩

/-! ## From the arguments of `run` -/

/-- A prepared plan carries the parsed entries and the options of the run. -/
structure Planned (host : Runtime) (config : RunConfig) (options : RunOptions) (plan : Plan) :
    Prop where
  entries : plan.entries = parseValidations host (config.tests.getD {}).validations
  options : plan.options = options

theorem preparePlan_ready {host : Runtime} {config : RunConfig} {options : RunOptions}
    {platform : String} {configPhases : List String} {steps : List StepConfig} {plan : Plan}
    {context : Context}
    (h : preparePlan host config options platform configPhases steps = .ok (.ready plan context)) :
    Planned host config options plan := by
  unfold preparePlan at h
  simp only at h
  split at h
  · cases h
  · split at h
    · cases h
    · cases hlabels : resolutionExcludeLabels options (config.tests.getD {}).exclude with
      | error raised => rw [hlabels] at h; cases h
      | ok labels =>
        rw [hlabels] at h
        cases h
        exact ⟨rfl, rfl⟩

theorem prepare_ready {host : Runtime} {config : RunConfig} {options : RunOptions} {plan : Plan}
    {context : Context} (h : prepare host config options = .ok (.ready plan context)) :
    Planned host config options plan := by
  unfold prepare at h
  split at h
  · cases h
  · rename_i platform _
    split at h
    · exact preparePlan_ready h
    · cases hphases : config.getPhases platform with
      | error raised => rw [hphases] at h; cases h
      | ok configPhases =>
        cases hsteps : config.getSteps platform with
        | error raised => rw [hphases, hsteps] at h; cases h
        | ok steps =>
          rw [hphases, hsteps] at h
          simp only [bind, Except.bind, pure, Except.pure] at h
          split at h
          · cases h
          · split at h
            · cases h
            · exact preparePlan_ready h

/-- How a finished run came about. -/
structure FinishedRun (world : World) (config : RunConfig) (options : RunOptions) (f : Finished) :
    Prop where
  world : f.env.world = world
  planned : Planned f.env.world.host config options f.env.plan
  reported : f.env.tmpdir.isNone = (options.junitxml.filter (· ≠ "")).isNone
  loop : ∃ context s, prepare f.env.world.host config options = .ok (.ready f.env.plan context) ∧
    runPhases f.env context = .next s ∧ resolveRemaining f.env s = .ok f.state
  report : mergeReports f.env f.state = .ok f.report
  result : f.result =
    { success := f.state.overallSuccess
      phases := f.state.phaseResults
      inventory := some f.state.context.steps
      validations := sortedRecords f.state.resolved }

theorem runPlan_finished {context : Context} {f : Finished}
    (h : runPlan env context = .finished f) :
    f.env = env ∧ (∃ s, runPhases env context = .next s ∧ resolveRemaining env s = .ok f.state) ∧
      mergeReports env f.state = .ok f.report ∧
      f.result =
        { success := f.state.overallSuccess
          phases := f.state.phaseResults
          inventory := some f.state.context.steps
          validations := sortedRecords f.state.resolved } := by
  unfold runPlan at h
  cases hphases : runPhases env context with
  | raise raised s => rw [hphases] at h; cases h
  | halt s => exact absurd hphases (runPhases_goesOn env context s)
  | next s =>
    rw [hphases] at h
    simp only at h
    cases hremaining : resolveRemaining env s with
    | error raised => rw [hremaining] at h; cases h
    | ok final =>
      rw [hremaining] at h
      simp only at h
      cases hmerge : mergeReports env final with
      | error raised => rw [hmerge] at h; cases h
      | ok report =>
        rw [hmerge] at h
        cases h
        exact ⟨rfl, ⟨s, rfl, hremaining⟩, hmerge, rfl⟩

theorem run_finished {world : World} {config : RunConfig} {options : RunOptions} {f : Finished}
    (h : run world config options = .finished f) : FinishedRun world config options f := by
  unfold run at h
  cases hprepare : prepare world.host config options with
  | error raised => rw [hprepare] at h; cases h
  | ok prepared =>
    rw [hprepare] at h
    cases prepared with
    | early result => cases h
    | ready plan context =>
      simp only at h
      have hplanned := prepare_ready hprepare
      split at h
      · rename_i hjunit
        obtain ⟨henv, ⟨s, hloop, hremaining⟩, hreport, hresult⟩ := runPlan_finished h
        obtain ⟨_, state, result, report⟩ := f
        subst henv
        exact ⟨rfl, hplanned, hjunit.symm, ⟨context, s, hprepare, hloop, hremaining⟩, hreport, hresult⟩
      · rename_i hjunit
        cases hdir : world.reports.mkdtemp with
        | error raised => rw [hdir] at h; cases h
        | ok dir =>
          rw [hdir] at h
          obtain ⟨henv, ⟨s, hloop, hremaining⟩, hreport, hresult⟩ := runPlan_finished h
          obtain ⟨_, state, result, report⟩ := f
          subst henv
          exact ⟨rfl, hplanned, (Bool.eq_false_iff.mpr hjunit).symm, ⟨context, s, hprepare, hloop, hremaining⟩, hreport, hresult⟩

/-- How `run` comes to the phase loop. -/
structure Started (world : World) (config : RunConfig) (options : RunOptions) (env : RunEnv)
    (context : Context) : Prop where
  world : env.world = world
  prepared : prepare env.world.host config options = .ok (.ready env.plan context)
  directory : ((options.junitxml.filter (· ≠ "")).isNone = true ∧ env.tmpdir = none) ∨
    (options.junitxml.filter (· ≠ "")).isNone = false ∧
      ∃ dir, env.world.reports.mkdtemp = .ok dir ∧ env.tmpdir = some dir

theorem Started.run_eq {world : World} {config : RunConfig} {options : RunOptions}
    {context : Context} (h : Started world config options env context) :
    run world config options = runPlan env context := by
  have hprepared := h.prepared
  have hdirectory := h.directory
  rw [h.world] at hprepared hdirectory
  obtain ⟨envWorld, plan, tmpdir⟩ := env
  obtain rfl : envWorld = world := h.world
  unfold run
  rw [hprepared]
  rcases hdirectory with ⟨hnone, htmp⟩ | ⟨hsome, dir, hdir, htmp⟩
  · simp only [hnone, if_true]
    exact congrArg (fun tmpdir ↦ runPlan ⟨envWorld, plan, tmpdir⟩ context) htmp.symm
  · simp only [hsome, Bool.false_eq_true, if_false, hdir]
    exact congrArg (fun tmpdir ↦ runPlan ⟨envWorld, plan, tmpdir⟩ context) htmp.symm

/-- A run comes to the loop in one way only. -/
theorem Started.unique {world : World} {config : RunConfig} {options : RunOptions}
    {other : RunEnv} {context found : Context} (h : Started world config options env context)
    (hother : Started world config options other found) : env = other ∧ context = found := by
  obtain ⟨envWorld, plan, tmpdir⟩ := env
  obtain ⟨otherWorld, otherPlan, otherDir⟩ := other
  obtain rfl : envWorld = world := h.world
  obtain rfl : otherWorld = envWorld := hother.world
  have hprepared := h.prepared.symm.trans hother.prepared
  simp only [Except.ok.injEq, Prepared.ready.injEq] at hprepared
  have htmpdir : tmpdir = otherDir := by
    rcases h.directory with ⟨hnone, htmp⟩ | ⟨hsome, dir, hdir, htmp⟩
    · rcases hother.directory with ⟨_, htmp'⟩ | ⟨hsome, _⟩
      · exact htmp.trans htmp'.symm
      · rw [hnone] at hsome
        cases hsome
    · rcases hother.directory with ⟨hnone, _⟩ | ⟨_, dir', hdir', htmp'⟩
      · rw [hnone] at hsome
        cases hsome
      · rw [hdir, Except.ok.injEq] at hdir'
        exact htmp.trans (hdir' ▸ htmp'.symm)
  rw [hprepared.1, hprepared.2, htmpdir]
  exact ⟨rfl, rfl⟩

/-- The environment and the context with which `run` comes to the phase loop, if it does. -/
def preparedEnv (world : World) (config : RunConfig) (options : RunOptions) :
    Option (RunEnv × Context) :=
  match prepare world.host config options with
  | .ok (.ready plan context) =>
    if (options.junitxml.filter (· ≠ "")).isNone then some (⟨world, plan, none⟩, context)
    else
      match world.reports.mkdtemp with
      | .error _ => none
      | .ok dir => some (⟨world, plan, some dir⟩, context)
  | _ => none

theorem started_of_preparedEnv {world : World} {config : RunConfig} {options : RunOptions}
    {context : Context} (h : preparedEnv world config options = some (env, context)) :
    Started world config options env context := by
  unfold preparedEnv at h
  split at h
  · rename_i plan found hprepare
    split at h
    · rename_i hjunit
      cases h
      exact ⟨rfl, hprepare, Or.inl ⟨hjunit, rfl⟩⟩
    · rename_i hjunit
      split at h
      · cases h
      · rename_i dir hdir
        cases h
        exact ⟨rfl, hprepare, Or.inr ⟨Bool.eq_false_iff.mpr hjunit, dir, hdir, rfl⟩⟩
  · cases h

/-- A fact about the prepared run which can be evaluated. -/
theorem exists_started (world : World) (config : RunConfig) (options : RunOptions)
    (p : RunEnv × Context → Bool) (h : (preparedEnv world config options).any p = true) :
    ∃ env context, Started world config options env context ∧ p (env, context) = true := by
  cases hprepared : preparedEnv world config options with
  | none => simp [hprepared] at h
  | some start =>
    rw [hprepared, Option.any_some] at h
    exact ⟨start.1, start.2, started_of_preparedEnv hprepared, h⟩

/-- A started run which finishes went through the loop in the same environment. -/
theorem Started.finished {world : World} {config : RunConfig} {options : RunOptions}
    {context : Context} {f : Finished} (h : Started world config options env context)
    (hrun : run world config options = .finished f) :
    f.env = env ∧ ∃ s, runPhases env context = .next s ∧ resolveRemaining env s = .ok f.state := by
  rw [h.run_eq] at hrun
  obtain ⟨henv, hloop, _⟩ := runPlan_finished hrun
  exact ⟨henv, hloop⟩

theorem visits_resolveRemaining (h : resolveRemaining env s = .ok s') : s'.visits = s.visits := by
  rcases resolveRemaining_ok h with ⟨_, rfl⟩ | ⟨_, records, hlast⟩
  · rfl
  · rw [hlast.state]

/-- Nothing after the loop changes what was visited. -/
theorem visits_runPlan (env : RunEnv) (context : Context) :
    (runPlan env context).visits = (runPhases env context).state.visits := by
  unfold runPlan
  cases runPhases env context with
  | raise raised s => rfl
  | next s | halt s =>
    simp only
    cases hlast : resolveRemaining env s with
    | error raised => rfl
    | ok final =>
      simp only
      have hvisits := visits_resolveRemaining hlast
      cases mergeReports env final with
      | error raised => exact hvisits
      | ok report => exact hvisits

/-! ## Concrete runs -/

/-- The run finishes, and its result satisfies `P`. -/
def RunOutcome.Finishes (P : Finished → Prop) : RunOutcome → Prop
  | finished f => P f
  | _ => False

instance (P : Finished → Prop) [DecidablePred P] :
    (outcome : RunOutcome) → Decidable (outcome.Finishes P)
  | .early _ => isFalse id
  | .finished f => inferInstanceAs (Decidable (P f))
  | .raised _ _ => isFalse id

def RunOutcome.isFinished : RunOutcome → Bool
  | finished _ => true
  | _ => false

theorem RunOutcome.finishes_of {outcome : RunOutcome} {P : Finished → Prop}
    (h : outcome.isFinished = true) (hP : ∀ f, outcome = .finished f → P f) : outcome.Finishes P := by
  cases outcome with
  | early result => simp [isFinished] at h
  | finished f => exact hP f rfl
  | raised error visits => simp [isFinished] at h

theorem RunOutcome.Finishes.exists_finished {outcome : RunOutcome} {P : Finished → Prop}
    (h : outcome.Finishes P) : ∃ f, outcome = .finished f ∧ P f := by
  cases outcome with
  | early result => cases h
  | finished f => exact ⟨f, rfl, h⟩
  | raised error visits => cases h

/-- A report directory in which every path denotes its own file. -/
def ReportFiles.plain : ReportFiles :=
  { mkdtemp := .ok "/tmp/junit", stat := fun _ ↦ .ok (), openWrite := fun _ ↦ .ok ()
    locate := id, writeReport := .ok (), redact := id }

/-- The plain machine with sessions in which every validation passes; they write no report. -/
def World.plain : World :=
  { host := .plain
    session := fun _ request ↦ .returned exitOk
      (request.validations.map fun item ↦ { name := item.1, passed := true }) none
    reports := .plain }

end IsvValidation.Orchestrator
