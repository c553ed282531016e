import IsvValidation.Orchestrator.Gating

/-!
# The full run of the command line

`isvctl test run` names the phases of a full run itself, and the orchestrator has its own word for
all of them. The two agree on the phases which the command line names. A configured phase under
any other name is part of the orchestrator's full run and passed over by the command line's.
-/

namespace IsvValidation.Orchestrator

open Config Host Library Pytest Resolution

variable {env : RunEnv} {s s' : LoopState} {phase : String}

/-- What `isvctl test run` requests for its `--phase` option. -/
def expandPhase (phase : Phase) : List Phase :=
  if phase = .all then [.setup, .test, .teardown] else [phase]

/-- The orchestration of `isvctl test run --phase`. -/
def cliRun (world : World) (config : RunConfig) (options : RunOptions) (phase : Phase) :
    RunOutcome :=
  run world config { options with phases := expandPhase phase }

/-- `Orchestrator.run(phases=[Phase.ALL])`. -/
def fullRun (world : World) (config : RunConfig) (options : RunOptions) : RunOutcome :=
  run world config { options with phases := [.all] }

/-- The names which the command line's expansion stands for. -/
def standardPhases : List String := (expandPhase .all).map Phase.value

/-- The answer of a run which does not enter the phase loop. -/
def RunOutcome.answer? : RunOutcome → Option OrchestratorResult
  | early result => some result
  | _ => none

/-! ## Two requests over one plan -/

/-- The same plan under another request. -/
def Plan.withPhases (plan : Plan) (phases : List Phase) : Plan :=
  { plan with options := { plan.options with phases } }

def RunEnv.withPhases (env : RunEnv) (phases : List Phase) : RunEnv :=
  { env with plan := env.plan.withPhases phases }

/-- Resolution looks at the request only through the phases of the entries. -/
theorem resolveEntry_congr (host : Runtime) (inputs : ResolveInputs) {requested : List String}
    {entry : ValidationEntry}
    (h : getEntryPhase entry inputs.stepPhases.get? ∈ inputs.requestedPhases ↔
      getEntryPhase entry inputs.stepPhases.get? ∈ requested) :
    resolveEntry host { inputs with requestedPhases := requested } entry =
      resolveEntry host inputs entry := by
  have hconfig : resolveByConfig host { inputs with requestedPhases := requested } entry =
      resolveByConfig host inputs entry := rfl
  have hphase : resolveByPhase host { inputs with requestedPhases := requested } entry =
      resolveByPhase host inputs entry := by
    have hcontains : requested.contains (getEntryPhase entry inputs.stepPhases.get?) =
        inputs.requestedPhases.contains (getEntryPhase entry inputs.stepPhases.get?) := by
      rw [Bool.eq_iff_iff, List.contains_iff_mem, List.contains_iff_mem]
      exact h.symm
    unfold resolveByPhase
    simp only [hcontains]
  unfold resolveEntry
  rw [hconfig, hphase]

theorem decideEntries_withPhases {phases : List Phase} {entries : List ValidationEntry}
    (h : ∀ entry ∈ entries,
      (getEntryPhase entry s.context.stepPhases.get? ∈ env.plan.requestedPhases ↔
        getEntryPhase entry s.context.stepPhases.get? ∈
          (env.withPhases phases).plan.requestedPhases)) :
    decideEntries (env.withPhases phases) s entries = decideEntries env s entries := by
  have hresolve : ∀ excludeTests,
      resolveEntries env.world.host (resolveInputs (env.withPhases phases) s excludeTests) entries =
        resolveEntries env.world.host (resolveInputs env s excludeTests) entries := by
    intro excludeTests
    apply mapM_congr_of_mem
    intro entry hmem
    exact resolveEntry_congr env.world.host (resolveInputs env s excludeTests) (h entry hmem)
  unfold decideEntries
  apply bind_congr
  exact hresolve

/-- A phase which both requests name is executed alike under both. -/
theorem executePhase_withPhases {phases : List Phase}
    (h : phase ∈ env.plan.requestedPhases)
    (hother : phase ∈ (env.withPhases phases).plan.requestedPhases) :
    executePhase (env.withPhases phases) s phase = executePhase env s phase := by
  have hvalidate : ∀ between attempts results,
      validatePhase (env.withPhases phases) between phase attempts results =
        validatePhase env between phase attempts results := by
    intro between attempts results
    have hdecide : decideEntries (env.withPhases phases) between
        ((phaseEntries env between phase).map Prod.snd) =
          decideEntries env between ((phaseEntries env between phase).map Prod.snd) := by
      apply decideEntries_withPhases
      intro entry hmem
      obtain ⟨item, hitem, rfl⟩ := List.mem_map.mp hmem
      have hphase : getEntryPhase item.2 between.context.stepPhases.get? = phase := by
        simpa using (List.mem_filter.mp hitem).2
      rw [hphase]
      exact iff_of_true h hother
    unfold validatePhase
    simp only
    rw [show phaseEntries (env.withPhases phases) between phase = phaseEntries env between phase
      from rfl, hdecide]
    rfl
  unfold executePhase
  simp only [hvalidate]
  rfl

theorem visitPhase_withPhases {phases : List Phase}
    (hrequests : (env.withPhases phases).plan.requests phase = env.plan.requests phase)
    (hsetup : (env.withPhases phases).plan.requests "setup" = env.plan.requests "setup")
    (h : phase ∈ env.plan.requestedPhases)
    (hother : phase ∈ (env.withPhases phases).plan.requestedPhases) :
    visitPhase (env.withPhases phases) phase s = visitPhase env phase s := by
  have hgate : gate (env.withPhases phases) s phase = gate env s phase := by
    unfold gate
    rw [hsetup]
    rfl
  unfold visitPhase
  rw [hrequests, hgate, executePhase_withPhases h hother]

/-! ## The two loops -/

theorem requests_expandPhase (h : env.plan.options.phases = expandPhase .all) (name : String) :
    env.plan.requests name = true ↔ name ∈ standardPhases := by
  simp [Plan.requests, h, expandPhase, standardPhases]

theorem requests_all (plan : Plan) (name : String) :
    (plan.withPhases [.all]).requests name = true := by
  simp [Plan.requests, Plan.withPhases]

theorem requestedPhases_expandPhase (h : env.plan.options.phases = expandPhase .all) :
    env.plan.requestedPhases = standardPhases := by
  simp [Plan.requestedPhases, h, expandPhase, standardPhases]

theorem requestedPhases_all (plan : Plan) :
    (plan.withPhases [.all]).requestedPhases = plan.configPhases := rfl

/-- An iteration adds one visit, which passes over the phase only if it is not requested. -/
theorem notRequested_visitPhase {name : String}
    (h : .notRequested name ∈ (visitPhase env phase s).state.visits) :
    .notRequested name ∈ s.visits ∨ env.plan.requests phase = false := by
  cases hrequested : env.plan.requests phase with
  | false => exact Or.inr rfl
  | true =>
    apply Or.inl
    unfold visitPhase at h
    simp only [hrequested, Bool.not_true, Bool.false_eq_true, if_false] at h
    cases hgate : gate env s phase with
    | some reason =>
      simp only [hgate, Loop.Signal.state_next, List.mem_append, List.mem_singleton] at h
      exact h.resolve_right (by simp)
    | none =>
      simp only [hgate] at h
      obtain ⟨log, _, _, hlogged⟩ := executePhase_logged env s phase
      obtain ⟨final, hvisits, _⟩ := hlogged.logged
      rw [hvisits, List.mem_append, List.mem_singleton] at h
      exact h.resolve_right (by simp)

/-- A request for all phases passes over none. -/
theorem visits_requested (env : RunEnv) (hall : ∀ name, env.plan.requests name = true)
    (context : Context) (name : String) :
    .notRequested name ∉ (runPhases env context).state.visits := by
  apply Loop.run_invariant (I := fun s : LoopState ↦ .notRequested name ∉ s.visits)
    List.not_mem_nil
  intro phase _ s hs hmem
  rcases notRequested_visitPhase hmem with hold | hpassed
  · exact hs hold
  · rw [hall phase] at hpassed
    cases hpassed

/-- The loop of the command line's full run does what the orchestrator's does exactly if it arrives
at no phase under another name. -/
theorem visits_runPhases_iff (h : env.plan.options.phases = expandPhase .all) (context : Context) :
    (runPhases env context).state.visits =
        (runPhases (env.withPhases [.all]) context).state.visits ↔
      Loop.Always (visitPhase env) (fun phase _ ↦ phase ∈ standardPhases) env.plan.configPhases
        { context } := by
  constructor
  · intro hsame
    apply Loop.Always.of_not_defect (D := fun s : LoopState ↦ ∃ name, .notRequested name ∈ s.visits)
    · rintro phase s ⟨name, hmem⟩
      obtain ⟨visit, hvisits, _⟩ := visitPhase_visits env phase s
      exact ⟨name, by rw [hvisits]; exact List.mem_append_left _ hmem⟩
    · intro phase s hcustom
      have hpassed : env.plan.requests phase = false := by
        rwa [← Bool.not_eq_true, requests_expandPhase h]
      refine ⟨phase, ?_⟩
      unfold visitPhase
      simp [hpassed]
    · rintro ⟨name, hmem⟩
      apply visits_requested (env.withPhases [.all]) (requests_all env.plan) context name
      rw [← hsame]
      exact hmem
  · intro halways
    apply congrArg fun signal : Loop.Signal PyError LoopState ↦ signal.state.visits
    apply halways.run_congr
    intro phase hmem s hstandard
    symm
    have hrequests : ∀ name ∈ standardPhases,
        (env.withPhases [.all]).plan.requests name = env.plan.requests name := by
      intro name hname
      rw [(requests_expandPhase h name).mpr hname]
      exact requests_all env.plan name
    apply visitPhase_withPhases
    · exact hrequests phase hstandard
    · exact hrequests "setup" (by decide)
    · rw [requestedPhases_expandPhase h]
      exact hstandard
    · exact (requestedPhases_all env.plan).symm ▸ hmem

/-! ## Up to the loop -/

/-- The platform of the configuration is switched off. -/
structure SkippedPlatform (config : RunConfig) (options : RunOptions) (platform : String)
    (commands : PlatformCommands) : Prop where
  detected : detectPlatform config options.capability = some platform
  configured : config.commands.lookup platform = some commands
  skip : commands.skip = true

theorem SkippedPlatform.withPhases {config : RunConfig} {options : RunOptions} {platform : String}
    {commands : PlatformCommands} (h : SkippedPlatform config options platform commands)
    (phases : List Phase) : SkippedPlatform config { options with phases } platform commands :=
  ⟨h.detected, h.configured, h.skip⟩

theorem SkippedPlatform.prepare_eq {config : RunConfig} {options : RunOptions} {platform : String}
    {commands : PlatformCommands} (h : SkippedPlatform config options platform commands)
    (host : Runtime) :
    prepare host config options = .ok (.early
      { success := true
        phases := (requestedConfigPhases commands.phases options.phases).map fun phase ↦
          { phase := phaseEnumForName phase
            success := true
            message := s!"SKIPPED: platform '{platform}' is skipped by configuration" }
        inventory := some (.dict []) }) := by
  have hcommands : config.commands.isEmpty = false := by
    cases hlist : config.commands with
    | nil => simpa [hlist] using h.configured
    | cons item rest => rfl
  unfold prepare
  simp only [h.detected, hcommands, RunConfig.getPhases, RunConfig.getSteps, h.configured,
    Option.any_some, h.skip]
  rfl

def Prepared.withPhases (phases : List Phase) : Prepared → Prepared
  | early result => .early result
  | ready plan context => .ready (plan.withPhases phases) context

theorem preparePlan_withPhases (host : Runtime) (config : RunConfig) (options : RunOptions)
    (phases : List Phase) (platform : String) (configPhases : List String)
    (steps : List StepConfig) :
    preparePlan host config { options with phases } platform configPhases steps =
      (preparePlan host config options platform configPhases steps).map
        (Prepared.withPhases phases) := by
  have hlabels : resolutionExcludeLabels { options with phases } (config.tests.getD {}).exclude =
      resolutionExcludeLabels options (config.tests.getD {}).exclude := rfl
  unfold preparePlan
  simp only [hlabels]
  split
  · rfl
  · split
    · rfl
    · cases resolutionExcludeLabels options (config.tests.getD {}).exclude with
      | error raised => rfl
      | ok labels => rfl

/-- Where the platform is not switched off, the request changes the plan in its request only. -/
theorem prepare_withPhases (host : Runtime) (config : RunConfig) (options : RunOptions)
    (phases : List Phase)
    (h : ∀ platform commands, ¬SkippedPlatform config options platform commands) :
    prepare host config { options with phases } =
      (prepare host config options).map (Prepared.withPhases phases) := by
  unfold prepare
  simp only
  cases hplatform : detectPlatform config options.capability with
  | none => rfl
  | some platform =>
    simp only
    by_cases hcommands : config.commands.isEmpty = true
    · rw [if_pos hcommands, if_pos hcommands]
      apply preparePlan_withPhases
    · rw [if_neg hcommands, if_neg hcommands]
      unfold RunConfig.getPhases RunConfig.getSteps
      cases hlookup : config.commands.lookup platform with
      | none => rfl
      | some commands =>
        have hrun : commands.skip = false := by
          rw [← Bool.not_eq_true]
          exact fun hskip ↦ h platform commands ⟨hplatform, hlookup, hskip⟩
        simp only [bind, Except.bind, Option.any_some, hrun, Bool.false_eq_true, if_false]
        split
        · rfl
        · apply preparePlan_withPhases

/-- Either the loop starts from the same context under both requests, or it starts under neither
and the runs are one. -/
theorem started_withPhases (world : World) (config : RunConfig) (options : RunOptions)
    (phases : List Phase)
    (h : ∀ platform commands, ¬SkippedPlatform config options platform commands) :
    (∃ env context, Started world config options env context ∧
      Started world config { options with phases } (env.withPhases phases) context) ∨
    run world config options = run world config { options with phases } ∧
      (∀ f, run world config options ≠ .finished f) ∧
      ∀ env context, ¬Started world config options env context := by
  have hprepare := prepare_withPhases world.host config options phases h
  cases hfirst : prepare world.host config options with
  | error raised =>
    rw [hfirst] at hprepare
    apply Or.inr
    unfold run
    rw [hfirst, hprepare]
    refine ⟨rfl, by simp, fun env context hstart ↦ ?_⟩
    have hready := hstart.prepared
    rw [hstart.world, hfirst] at hready
    cases hready
  | ok prepared =>
    rw [hfirst] at hprepare
    cases prepared with
    | early result =>
      apply Or.inr
      unfold run
      rw [hfirst, hprepare]
      refine ⟨rfl, by simp, fun env context hstart ↦ ?_⟩
      have hready := hstart.prepared
      rw [hstart.world, hfirst] at hready
      cases hready
    | ready plan context =>
      cases hjunit : (options.junitxml.filter (· ≠ "")).isNone with
      | true =>
        exact Or.inl ⟨⟨world, plan, none⟩, context, ⟨rfl, hfirst, Or.inl ⟨hjunit, rfl⟩⟩,
          ⟨rfl, hprepare, Or.inl ⟨hjunit, rfl⟩⟩⟩
      | false =>
        cases hdir : world.reports.mkdtemp with
        | error raised =>
          apply Or.inr
          unfold run
          rw [hfirst, hprepare]
          simp only [Except.map, Prepared.withPhases, hjunit, hdir, Bool.false_eq_true, if_false]
          refine ⟨trivial, by simp, fun env context hstart ↦ ?_⟩
          have hdirectory := hstart.directory
          rw [hstart.world, hjunit, hdir] at hdirectory
          simp at hdirectory
        | ok dir =>
          exact Or.inl ⟨⟨world, plan, some dir⟩, context,
            ⟨rfl, hfirst, Or.inr ⟨hjunit, dir, hdir, rfl⟩⟩,
            ⟨rfl, hprepare, Or.inr ⟨hjunit, dir, hdir, rfl⟩⟩⟩

/-! ## Validations in their phase -/

/-- Every validation bound to a phase which was executed was settled in an execution of it. -/
def SettledInPhase (env : RunEnv) (s : LoopState) : Prop :=
  ∀ i entry log, env.plan.entries[i]? = some entry →
    .executed (getEntryPhase entry s.context.stepPhases.get?) log ∈ s.visits →
      ∃ log, .executed (getEntryPhase entry s.context.stepPhases.get?) log ∈ s.visits ∧
        i ∈ log.indexes

/-- The record of the loop: what is settled was settled in its phase, and nothing bound to an
executed phase is open. -/
structure SettledSoFar (env : RunEnv) (context : Context) (s : LoopState) : Prop where
  stepPhases : s.context.stepPhases = context.stepPhases
  settled : ∀ i entry, env.plan.entries[i]? = some entry → i ∈ s.resolved.keys →
    ∃ log, .executed (getEntryPhase entry context.stepPhases.get?) log ∈ s.visits ∧
      i ∈ log.indexes
  complete : ∀ i entry log, env.plan.entries[i]? = some entry →
    .executed (getEntryPhase entry context.stepPhases.get?) log ∈ s.visits → i ∈ s.resolved.keys

theorem SettledSoFar.idle {context : Context} (h : SettledSoFar env context s) {visit : Visit}
    (hidle : visit.log? = none) (hcontext : s'.context = s.context)
    (hresolved : s'.resolved = s.resolved) (hvisits : s'.visits = s.visits ++ [visit]) :
    SettledSoFar env context s' := by
  constructor
  · rw [hcontext]
    exact h.stepPhases
  · intro i entry hget hmem
    obtain ⟨log, hlog, hi⟩ := h.settled i entry hget (hresolved ▸ hmem)
    exact ⟨log, hvisits ▸ List.mem_append_left _ hlog, hi⟩
  · intro i entry log hget hmem
    rw [hvisits, List.mem_append, List.mem_singleton] at hmem
    rw [hresolved]
    rcases hmem with hold | rfl
    · exact h.complete i entry log hget hold
    · cases hidle

theorem mem_phaseEntries_iff {i : ℕ} {entry : ValidationEntry} :
    (i, entry) ∈ phaseEntries env s phase ↔ env.plan.entries[i]? = some entry ∧
      i ∉ s.resolved.keys ∧ getEntryPhase entry s.context.stepPhases.get? = phase := by
  unfold phaseEntries
  rw [List.mem_filter, mem_openEntries, decide_eq_true_iff, and_assoc]

theorem SettledSoFar.executed {context : Context} (h : SettledSoFar env context s)
    {exec : ExecState} {log : PhaseLog} (hran : PhaseRan env s phase exec log s') :
    SettledSoFar env context s' := by
  have hkeys : ∀ i, i ∈ s'.resolved.keys ↔ i ∈ s.resolved.keys ∨ i ∈ log.indexes := by
    intro i
    rw [hran.resolved, hran.indexes, mem_keys_settle (forall₂_map_snd hran.records)]
  constructor
  · rw [hran.context, hran.stepPhases]
    exact h.stepPhases
  · intro i entry hget hmem
    rw [hran.visits]
    by_cases hold : i ∈ s.resolved.keys
    · obtain ⟨before, hbefore, hi⟩ := h.settled i entry hget hold
      exact ⟨before, List.mem_append_left _ hbefore, hi⟩
    · have hnew : i ∈ log.indexes := ((hkeys i).mp hmem).resolve_left hold
      have hitem := hnew
      rw [hran.indexes] at hitem
      obtain ⟨⟨j, found⟩, hfound, rfl⟩ := List.mem_map.mp hitem
      obtain ⟨hsame, _, hphase⟩ := mem_phaseEntries_iff.mp hfound
      rw [hget, Option.some.injEq] at hsame
      rw [h.stepPhases, ← hsame] at hphase
      exact ⟨log, by rw [hphase]; simp, hnew⟩
  · intro i entry other hget hmem
    rw [hkeys]
    rw [hran.visits, List.mem_append, List.mem_singleton, Visit.executed.injEq] at hmem
    rcases hmem with hold | ⟨hphase, _⟩
    · exact Or.inl (h.complete i entry other hget hold)
    · by_cases hold : i ∈ s.resolved.keys
      · exact Or.inl hold
      · apply Or.inr
        rw [hran.indexes]
        apply List.mem_map_of_mem (f := Prod.fst) (a := (i, entry))
        rw [mem_phaseEntries_iff, h.stepPhases]
        exact ⟨hget, hold, hphase⟩

theorem SettledSoFar.visited {context : Context} (h : SettledSoFar env context s)
    (hvisited : Visited env s phase s') : SettledSoFar env context s' := by
  cases hvisited with
  | notRequested _ hstate =>
    apply h.idle (@rfl _ (Visit.notRequested phase).log?) <;> rw [hstate]
  | skipped reason _ _ hstate =>
    apply h.idle (@rfl _ (Visit.skipped phase reason).log?) <;> rw [hstate]
  | executed exec log _ _ hran => exact h.executed hran

theorem SettledSoFar.settledInPhase {context : Context} (h : SettledSoFar env context s) :
    SettledInPhase env s := by
  intro i entry log hget hmem
  rw [h.stepPhases] at hmem ⊢
  exact h.settled i entry hget (h.complete i entry log hget hmem)

/-! ## The full run -/

/-- The run went through every configured phase in order and passed over none. Each was executed or
gated by the failure rules, each execution attempted its steps, and each settled its
validations. -/
structure VisitsEveryPhase (f : Finished) : Prop where
  phases : f.state.visits.map Visit.phase = f.env.plan.configPhases
  requested : ∀ phase, .notRequested phase ∉ f.state.visits
  gates : GatesFollowed f.env.plan f.env.world.host f.state.visits
  validations : SettledInPhase f.env f.state

/-- The full run of the command line is the orchestrator's: it leaves the same visits, with all
that was done in them, or gives the same answer at once; and when it finishes, it has visited every
configured phase. -/
structure SameFullRun (world : World) (config : RunConfig) (options : RunOptions) : Prop where
  visits : (cliRun world config options .all).visits = (fullRun world config options).visits
  answer : (cliRun world config options .all).answer? = (fullRun world config options).answer?
  every : ∀ f, cliRun world config options .all = .finished f → VisitsEveryPhase f

/-- No phase has another name than the command line's three: neither a phase of a platform which is
switched off, nor a phase at which the loop arrives. -/
structure NoCustomPhase (world : World) (config : RunConfig) (options : RunOptions) : Prop where
  skipped : ∀ platform commands, SkippedPlatform config options platform commands →
    ∀ phase ∈ commands.phases, phase ∈ standardPhases
  reached : ∀ env context,
    Started world config { options with phases := expandPhase .all } env context →
      Loop.Always (visitPhase env) (fun phase _ ↦ phase ∈ standardPhases) env.plan.configPhases
        { context }

theorem visitsEveryPhase {world : World} {config : RunConfig} {options : RunOptions}
    {context : Context} {f : Finished} (hstart : Started world config options env context)
    (hrun : run world config options = .finished f)
    (hrequested : ∀ phase, .notRequested phase ∉ (run world config options).visits) :
    VisitsEveryPhase f := by
  obtain ⟨rfl, s, hloop, hremaining⟩ := hstart.finished hrun
  have hvisits : f.state.visits = s.visits := visits_resolveRemaining hremaining
  have hgates : GatesSoFar f.env f.env.plan.configPhases s :=
    runPhases_rule (I := GatesSoFar f.env) (gatesSoFar_initial f.env context)
      (fun _ _ _ _ hdone ↦ hdone.visited) hloop
  have hsettled : SettledSoFar f.env context s :=
    runPhases_rule (I := fun _ ↦ SettledSoFar f.env context) ⟨rfl, by simp, by simp⟩
      (fun _ _ _ _ hdone ↦ hdone.visited) hloop
  have hcontext : f.state.context = s.context := by
    rcases resolveRemaining_ok hremaining with ⟨_, hsame⟩ | ⟨_, records, hlast⟩
    · rw [hsame]
    · rw [hlast.state]
  constructor
  · rw [hvisits]
    exact hgates.phases
  · intro phase
    rw [hrun] at hrequested
    exact hrequested phase
  · rw [hvisits]
    exact hgates.gatesFollowed
  · have hphase := hsettled.settledInPhase
    unfold SettledInPhase at hphase ⊢
    rw [hvisits, hcontext]
    exact hphase

theorem answer?_runPlan (env : RunEnv) (context : Context) : (runPlan env context).answer? = none := by
  unfold runPlan
  cases runPhases env context with
  | raise raised s => rfl
  | next s | halt s =>
    cases hlast : resolveRemaining env s with
    | error raised => simp only [hlast]; rfl
    | ok final =>
      cases hmerge : mergeReports env final with
      | error raised => simp only [hlast, hmerge]; rfl
      | ok report => simp only [hlast, hmerge]; rfl

/-- Where the platform is switched off, the two answers agree if no phase has a custom name. -/
theorem SkippedPlatform.answer_iff {config : RunConfig} {options : RunOptions} {platform : String}
    {commands : PlatformCommands} (h : SkippedPlatform config options platform commands)
    (world : World) :
    SameFullRun world config options ↔ ∀ phase ∈ commands.phases, phase ∈ standardPhases := by
  have hcli := (h.withPhases (expandPhase .all)).prepare_eq world.host
  have hfull := (h.withPhases [.all]).prepare_eq world.host
  have hstandard : requestedConfigPhases commands.phases (expandPhase .all) =
      commands.phases.filter standardPhases.contains := rfl
  have hall : requestedConfigPhases commands.phases [.all] = commands.phases := rfl
  rw [hstandard] at hcli
  rw [hall] at hfull
  constructor
  · intro hsame phase hmem
    have hanswer := hsame.answer
    unfold cliRun fullRun run at hanswer
    rw [hcli, hfull] at hanswer
    have hlength := congrArg (fun answer ↦ answer.map fun result ↦ result.phases.length) hanswer
    simp only [RunOutcome.answer?, Option.map_some, List.length_map, Option.some.injEq] at hlength
    simpa using List.length_filter_eq_length_iff.mp hlength phase hmem
  · intro hphases
    have hfilter : commands.phases.filter standardPhases.contains = commands.phases := by
      rw [List.filter_eq_self]
      exact fun phase hmem ↦ List.contains_iff_mem.mpr (hphases phase hmem)
    rw [hfilter] at hcli
    have hrun : cliRun world config options .all = fullRun world config options := by
      unfold cliRun fullRun run
      rw [hcli, hfull]
    constructor
    · rw [hrun]
    · rw [hrun]
    · intro f hfinished
      unfold cliRun run at hfinished
      rw [hcli] at hfinished
      cases hfinished

/-- The full run of the command line is the orchestrator's exactly where no custom phase is
reached. -/
theorem full_run_same_iff (world : World) (config : RunConfig) (options : RunOptions) :
    SameFullRun world config options ↔ NoCustomPhase world config options := by
  by_cases hskipped : ∃ platform commands, SkippedPlatform config options platform commands
  · obtain ⟨platform, commands, hskip⟩ := hskipped
    rw [hskip.answer_iff world]
    constructor
    · intro hphases
      constructor
      · intro other found hother
        have hplatform := hskip.detected.symm.trans hother.detected
        cases hplatform
        have hcommands := hskip.configured.symm.trans hother.configured
        cases hcommands
        exact hphases
      · intro env context hstart
        have hearly := (hskip.withPhases (expandPhase .all)).prepare_eq env.world.host
        rw [hstart.prepared] at hearly
        cases hearly
    · exact fun hnone ↦ hnone.skipped platform commands hskip
  · push Not at hskipped
    rcases started_withPhases world config { options with phases := expandPhase .all } [.all]
        (fun platform commands h ↦ hskipped platform commands (h.withPhases options.phases))
      with ⟨env, context, hcli, hfull⟩ | ⟨hsame, hunfinished, hnone⟩
    · have hphases : env.plan.options.phases = expandPhase .all := by
        rw [(prepare_ready hcli.prepared).options]
      have hvisits := visits_runPhases_iff hphases context
      rw [← visits_runPlan, ← visits_runPlan, ← hcli.run_eq, ← hfull.run_eq] at hvisits
      constructor
      · intro hrun
        constructor
        · exact fun platform commands h ↦ absurd h (hskipped platform commands)
        · intro other found hstart
          obtain ⟨rfl, rfl⟩ := hstart.unique hcli
          exact hvisits.mp hrun.visits
      · intro hnone
        have hsame := hvisits.mpr (hnone.reached env context hcli)
        constructor
        · exact hsame
        · unfold cliRun fullRun
          rw [hcli.run_eq, answer?_runPlan]
          exact (congrArg RunOutcome.answer? hfull.run_eq |>.trans (answer?_runPlan ..)).symm
        · intro f hfinished
          apply visitsEveryPhase hcli hfinished
          intro phase
          rw [hsame, hfull.run_eq, visits_runPlan]
          exact visits_requested (env.withPhases [.all]) (requests_all env.plan) context phase
    · constructor
      · intro _
        constructor
        · exact fun platform commands h ↦ absurd h (hskipped platform commands)
        · exact fun env context hstart ↦ absurd hstart (hnone env context)
      · intro _
        have hrun : cliRun world config options .all = fullRun world config options := hsame
        constructor
        · rw [hrun]
        · rw [hrun]
        · exact fun f hfinished ↦ absurd hfinished (hunfinished f)

/-- A custom phase is not visited: its steps do not run. -/
theorem custom_phase_passed_over :
    accepted .plain (.sample ["case-one", "case-two"]
      [{ name := "case_one", command := "false", phase := "case-one" },
        { name := "case_two", command := "echo", phase := "case-two" }] []) = true ∧
      ¬ SameFullRun .plain (.sample ["case-one", "case-two"]
        [{ name := "case_one", command := "false", phase := "case-one" },
          { name := "case_two", command := "echo", phase := "case-two" }] []) {} := by
  refine ⟨by decide +kernel, fun hsame ↦ ?_⟩
  have hlaunched := congrArg (List.map Visit.launched) hsame.visits
  revert hlaunched
  decide +kernel

end IsvValidation.Orchestrator
