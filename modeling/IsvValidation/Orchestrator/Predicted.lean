import IsvValidation.Orchestrator.DryRun
import IsvValidation.Orchestrator.Gating
import IsvValidation.Orchestrator.Merged

/-!
# The dry run predicts the run

Plan and resolution agree about every entry, so the plan of a dry run foretells the records of the
run wherever both complete. They part over the exclude block: a `labels` or `tests` key with the
value null leaves the plan as it is and ends the run with a `TypeError`. Where both can read the
block, a run which nothing else disturbs completes.
-/

namespace IsvValidation.Orchestrator

open Config Host Junit Library Pytest Resolution

variable {env : RunEnv} {s s' : LoopState} {phase : String}

/-! ## Reading the exclude block -/

/-- The value is a collection of strings. -/
def NamesOnly (value : Value) : Prop := ∃ names : List String, value.toSet = .ok (names.map .str)

/-- `exclude.get(key, [])`. -/
def excludedValue (exclude : Items) (key : String) : Value :=
  (exclude.lookup (.str key)).getD (.list [])

/-- The labels of the configuration are excluded where the command line selects nothing. -/
def RunOptions.excludesConfigured (options : RunOptions) : Bool :=
  options.includeLabels.isEmpty && !hasExplicitPytestSelection options.extraPytestArgs

/-- What the dry run reads: the labels excluded from now on, and the names. -/
structure PlanReads (config : RunConfig) (options : RunOptions) (labels tests : List String) :
    Prop where
  labels : rejectedLabels options (config.tests.getD {}).exclude = .ok (labels.map .str)
  tests : (excludedOrEmpty (config.tests.getD {}).exclude "tests").toSet = .ok (tests.map .str)

theorem mapM_str? (names : List String) :
    ((names.map Scalar.str).mapM fun member ↦ (Value.scalar member).str?) = some names := by
  induction names with
  | nil => rfl
  | cons name rest ih =>
    rw [List.map_cons, List.mapM_cons, ih]
    rfl

theorem eq_map_str {members : List Scalar} {names : List String}
    (h : (members.mapM fun member ↦ (Value.scalar member).str?) = some names) :
    members = names.map .str := by
  have heq : List.Forall₂ Eq members (names.map .str) := by
    rw [List.forall₂_map_right_iff]
    apply (mapM_eq_some_iff.mp h).imp
    intro member name hname
    cases member <;> simp_all [Value.str?]
  rwa [List.forall₂_eq_eq_eq] at heq

/-- A head line can be rendered exactly for a set of strings. -/
theorem headLine_isOk (title : String) (members : List Scalar) (note : String) :
    (∃ lines, headLine title members note = .ok lines) ↔
      ∃ names : List String, members = names.map .str := by
  unfold headLine joinSorted
  constructor
  · rintro ⟨lines, h⟩
    by_cases hempty : members.isEmpty = true
    · exact ⟨[], List.isEmpty_iff.mp hempty⟩
    · rw [if_neg hempty] at h
      cases hnames : members.mapM fun member ↦ (Value.scalar member).str? with
      | none => rw [hnames] at h; cases h
      | some names => exact ⟨names, eq_map_str hnames⟩
  · rintro ⟨names, rfl⟩
    rw [mapM_str?]
    split
    · exact ⟨_, rfl⟩
    · exact ⟨_, rfl⟩

theorem selectionHead_isOk (selected : List String) (rejected rejectedTests : List Scalar) :
    (∃ head, selectionHead selected rejected rejectedTests = .ok head) ↔
      (∃ names : List String, rejected = names.map .str) ∧
        ∃ names : List String, rejectedTests = names.map .str := by
  obtain ⟨labels, hlabels⟩ := (headLine_isOk "Labels" (selected.map .str) " (all required)").mpr
    ⟨selected, rfl⟩
  rw [← headLine_isOk "Excluded labels" rejected "", ← headLine_isOk "Excluded tests" rejectedTests ""]
  unfold selectionHead
  rw [hlabels]
  cases headLine "Excluded labels" rejected "" with
  | error raised => simp [bind, Except.bind]
  | ok excludedLabels =>
    cases headLine "Excluded tests" rejectedTests "" with
    | error raised => simp [bind, Except.bind]
    | ok excludedTests => simp [bind, Except.bind, pure, Except.pure]

/-- What a dry run that completes has read. -/
theorem planReads_of_ok {host : Runtime} {config : RunConfig} {options : RunOptions}
    {plan : DryRunPlan} (h : humanReadableDryRun host config options = .ok plan) :
    ∃ labels tests, PlanReads config options labels tests := by
  unfold humanReadableDryRun at h
  cases hrejected : rejectedLabels options (config.tests.getD {}).exclude with
  | error raised => simp [hrejected, bind, Except.bind] at h
  | ok rejected =>
    cases hset : (excludedOrEmpty (config.tests.getD {}).exclude "tests").toSet with
    | error raised => simp [hrejected, hset, bind, Except.bind] at h
    | ok rejectedTests =>
      cases hhead : selectionHead options.includeLabels rejected rejectedTests with
      | error raised => simp [hrejected, hset, hhead, bind, Except.bind] at h
      | ok head =>
        obtain ⟨⟨names, hnames⟩, tests, htests⟩ :=
          (selectionHead_isOk options.includeLabels rejected rejectedTests).mp ⟨head, hhead⟩
        exact ⟨names, tests, hnames ▸ hrejected, htests ▸ hset⟩

/-- A dry run which can read the exclude block completes, with one line for each entry. -/
theorem humanReadableDryRun_ok (host : Runtime) {config : RunConfig} {options : RunOptions}
    {labels tests : List String} (h : PlanReads config options labels tests) :
    ∃ head, humanReadableDryRun host config options = .ok
      ⟨head, (parseValidations host (config.tests.getD {}).validations).map
        (planCheck options.includeLabels (labels.map .str)
          (tests.map .str) options.capability)⟩ := by
  obtain ⟨head, hhead⟩ := (selectionHead_isOk options.includeLabels (labels.map .str)
    (tests.map .str)).mpr ⟨⟨labels, rfl⟩, ⟨tests, rfl⟩⟩
  unfold humanReadableDryRun
  simp only [h.labels, h.tests, hhead, bind, Except.bind]
  exact ⟨_, rfl⟩

/-- A false value which can be put into a set is empty. -/
theorem toSet_of_not_truthy {value : Value} {names : List Scalar} (h : value.toSet = .ok names)
    (hfalse : value.truthy = false) : names = [] := by
  cases value with
  | scalar scalar =>
    cases scalar <;> simp_all [Value.toSet, Value.truthy, Scalar.truthy]
  | list items => simp_all [Value.toSet, Value.truthy, pure, Except.pure]
  | dict items => simp_all [Value.toSet, Value.truthy]
  | set members => simp_all [Value.toSet, Value.truthy]

/-- What the run can read of the exclude block, the dry run reads alike. -/
theorem toSet_excludedOrEmpty {exclude : Items} {key : String} {names : List Scalar}
    (h : (excludedValue exclude key).toSet = .ok names) :
    (excludedOrEmpty exclude key).toSet = .ok names := by
  unfold excludedOrEmpty
  unfold excludedValue at h
  cases hlookup : exclude.lookup (Scalar.str key) with
  | none =>
    rw [hlookup] at h
    exact h
  | some value =>
    rw [hlookup, Option.getD_some] at h
    simp only [Option.getD_some]
    cases htruthy : value.truthy with
    | true => simpa using h
    | false =>
      rw [toSet_of_not_truthy h htruthy]
      rfl

/-- The labels a run excludes, by what its command line selects. -/
theorem resolutionExcludeLabels_eq (options : RunOptions) (exclude : Items) :
    resolutionExcludeLabels options exclude =
      if options.excludesConfigured then do
        let configured ← (excludedValue exclude "labels").toSet
        return options.excludeLabels.map .str ++ configured
      else .ok (options.excludeLabels.map .str) := by
  unfold resolutionExcludeLabels RunOptions.excludesConfigured
  cases options.includeLabels.isEmpty with
  | true => cases hasExplicitPytestSelection options.extraPytestArgs <;> rfl
  | false => rfl

theorem rejectedLabels_eq {options : RunOptions} {exclude : Items} {labels : List Scalar}
    (h : resolutionExcludeLabels options exclude = .ok labels) :
    rejectedLabels options exclude = .ok labels := by
  rw [resolutionExcludeLabels_eq] at h
  change (if options.excludesConfigured then do
    let configured ← (excludedOrEmpty exclude "labels").toSet
    return options.excludeLabels.map .str ++ configured
    else .ok (options.excludeLabels.map .str)) = Except.ok labels
  cases hconfigured : options.excludesConfigured with
  | false =>
    rw [hconfigured] at h
    exact h
  | true =>
    rw [hconfigured] at h
    cases hset : (excludedValue exclude "labels").toSet with
    | error raised => rw [hset] at h; cases h
    | ok configured =>
      rw [hset] at h
      rw [toSet_excludedOrEmpty hset]
      exact h

/-- Labels which a run can read, and which are strings. -/
theorem resolutionExcludeLabels_names_iff (options : RunOptions) (exclude : Items) :
    (∃ labels : List String, resolutionExcludeLabels options exclude = .ok (labels.map .str)) ↔
      (options.excludesConfigured = true → NamesOnly (excludedValue exclude "labels")) := by
  rw [resolutionExcludeLabels_eq]
  cases hconfigured : options.excludesConfigured with
  | false => simp
  | true =>
    simp only [if_true, forall_const, NamesOnly]
    cases hset : (excludedValue exclude "labels").toSet with
    | error raised => simp [bind, Except.bind]
    | ok configured =>
      simp only [bind, Except.bind, pure, Except.pure, Except.ok.injEq]
      constructor
      · rintro ⟨labels, hlabels⟩
        have hdrop := congrArg (List.drop options.excludeLabels.length) hlabels
        rw [List.drop_left' (by simp), ← List.map_drop] at hdrop
        exact ⟨_, hdrop⟩
      · rintro ⟨names, rfl⟩
        exact ⟨options.excludeLabels ++ names, (List.map_append ..).symm⟩

/-! ## From the configuration to the loop -/

/-- The configuration with an empty exclude block. -/
def clearExclude (config : RunConfig) : RunConfig :=
  { config with tests := config.tests.map fun tests ↦ { tests with exclude := [] } }

/-- The plan with the labels and names which the exclude block lists. -/
def Plan.excluding (plan : Plan) (labels : List Scalar) (tests : Value) : Plan :=
  { plan with excludeLabels := labels, excludeTests := tests }

theorem getD_clearExclude (config : RunConfig) :
    (clearExclude config).tests.getD {} = { config.tests.getD {} with exclude := [] } := by
  obtain ⟨lab, commands, context, tests, rootPlatform⟩ := config
  cases tests with
  | none => rfl
  | some tests => rfl

theorem ofConfig_clearExclude (host : Runtime) (config : RunConfig) :
    Context.ofConfig host (clearExclude config) = Context.ofConfig host config := by
  obtain ⟨lab, commands, context, tests, rootPlatform⟩ := config
  cases tests with
  | none => rfl
  | some tests => rfl

theorem detectPlatform_clearExclude (config : RunConfig) (capability : Option String) :
    detectPlatform (clearExclude config) capability = detectPlatform config capability := by
  obtain ⟨lab, commands, context, tests, rootPlatform⟩ := config
  cases tests with
  | none => rfl
  | some tests => rfl

/-- What comes before the loop reads nothing of the exclude block but its labels and names. -/
theorem preparePlan_clearExclude {host : Runtime} {config : RunConfig} {options : RunOptions}
    {platform : String} {configPhases : List String} {steps : List StepConfig} {plan : Plan}
    {context : Context} (h : preparePlan host (clearExclude config) options platform configPhases steps =
      .ok (.ready plan context)) :
    preparePlan host config options platform configPhases steps =
      (resolutionExcludeLabels options (config.tests.getD {}).exclude).map fun labels ↦
        .ready (plan.excluding labels (excludedValue (config.tests.getD {}).exclude "tests"))
          context := by
  have hcommands : (clearExclude config).commands = config.commands := rfl
  unfold preparePlan at h ⊢
  simp only [getD_clearExclude, ofConfig_clearExclude, hcommands] at h ⊢
  split at h
  · cases h
  · rename_i hsome
    rw [if_neg hsome]
    split at h
    · cases h
    · cases hcleared : resolutionExcludeLabels options [] with
      | error raised => rw [hcleared] at h; cases h
      | ok cleared =>
        rw [hcleared] at h
        cases h
        cases resolutionExcludeLabels options (config.tests.getD {}).exclude with
        | error raised => rfl
        | ok labels => rfl

theorem prepare_clearExclude {host : Runtime} {config : RunConfig} {options : RunOptions}
    {plan : Plan} {context : Context}
    (h : prepare host (clearExclude config) options = .ok (.ready plan context)) :
    prepare host config options =
      (resolutionExcludeLabels options (config.tests.getD {}).exclude).map fun labels ↦
        .ready (plan.excluding labels (excludedValue (config.tests.getD {}).exclude "tests"))
          context := by
  have hcommands : (clearExclude config).commands = config.commands := rfl
  have hphases : (clearExclude config).getPhases = config.getPhases := rfl
  have hsteps : (clearExclude config).getSteps = config.getSteps := rfl
  unfold prepare at h ⊢
  rw [detectPlatform_clearExclude] at h
  simp only [hcommands, hphases, hsteps] at h
  split at h
  · cases h
  · rename_i platform _
    split at h
    · rename_i hempty
      rw [if_pos hempty]
      exact preparePlan_clearExclude h
    · rename_i hnonempty
      rw [if_neg hnonempty]
      cases hphases : config.getPhases platform with
      | error raised => rw [hphases] at h; cases h
      | ok configPhases =>
        cases hsteps : config.getSteps platform with
        | error raised => rw [hphases, hsteps] at h; cases h
        | ok steps =>
          rw [hphases, hsteps] at h
          simp only [bind, Except.bind, pure, Except.pure] at h ⊢
          split at h
          · cases h
          · rename_i hrun
            rw [if_neg hrun]
            split at h
            · cases h
            · rename_i hlisted
              rw [if_neg hlisted]
              exact preparePlan_clearExclude h

/-! ## The files of a run -/

/-- Every file so far is a stub or the report of a session. -/
def FilesSourced (env : RunEnv) (s : LoopState) : Prop :=
  ∀ path doc, s.files.get? path = some doc → Sourced env doc

theorem FilesSourced.insert (h : FilesSourced env s) (path : String) {doc : JUnitDoc}
    (hdoc : Sourced env doc) (hfiles : s'.files = s.files.insert path doc) : FilesSourced env s' := by
  intro other found hget
  rw [hfiles, OrderedMap.get?_insert] at hget
  split at hget
  · cases hget
    exact hdoc
  · exact h other found hget

theorem FilesSourced.writeStub {suffix : String} {records : List ResolvedEntry}
    (h : FilesSourced env s) (hstub : Orchestrator.writeStub env s phase suffix records = .ok s') :
    FilesSourced env s' := by
  unfold Orchestrator.writeStub at hstub
  cases hopen : env.world.reports.openWrite (junitName phase suffix) with
  | error raised => rw [hopen] at hstub; cases hstub
  | ok _ =>
    rw [hopen] at hstub
    cases hstub
    exact h.insert _ (.stub phase records rfl) rfl

theorem FilesSourced.stubWhen {suffix : String} {records : List ResolvedEntry}
    (h : FilesSourced env s) (hstub : Orchestrator.stubWhen env s phase suffix records = .ok s') :
    FilesSourced env s' := by
  unfold Orchestrator.stubWhen at hstub
  split at hstub
  · cases hstub
    exact h
  · exact h.writeStub hstub

theorem FilesSourced.visited (h : FilesSourced env s) (hvisited : Visited env s phase s') :
    FilesSourced env s' := by
  cases hvisited with
  | notRequested _ hstate => rw [hstate]; exact h
  | skipped reason _ _ hstate => rw [hstate]; exact h
  | executed exec log _ _ hran =>
    obtain ⟨before, stored, after, hbefore, ⟨sessions, hstored⟩, _, hafter, hfiles, _⟩ := hran.files
    have hfirst : FilesSourced env before := FilesSourced.stubWhen (s := afterSteps env s phase exec) h hbefore
    have hreport : FilesSourced env stored := by
      rw [hstored]
      unfold storeReport
      split
      · rename_i doc _ hxml
        exact hfirst.insert _ (hran.session.sourced hxml) rfl
      · exact hfirst
    have hlisted : FilesSourced env (listReport stored phase log.document) := by
      obtain ⟨junitFiles, hlist⟩ := listReport_frame stored phase log.document
      rw [hlist]
      exact hreport
    have hlast : FilesSourced env after := hlisted.stubWhen hafter
    unfold FilesSourced
    rw [hfiles]
    exact hlast

theorem FilesSourced.writeUnexecuted (groups : List (String × List ResolvedEntry))
    (h : FilesSourced env s)
    (hopen : ∀ group ∈ groups,
      env.world.reports.openWrite (junitName group.1 "-unexecuted") = .ok ()) :
    ∃ after, Orchestrator.writeUnexecuted env groups s = .ok after ∧ FilesSourced env after := by
  induction groups generalizing s with
  | nil => exact ⟨s, rfl, h⟩
  | cons group rest ih =>
    unfold Orchestrator.writeUnexecuted at ih ⊢
    rw [List.foldlM_cons]
    have hstub : ∃ between, Orchestrator.writeStub env s group.1 "-unexecuted" group.2 = .ok between := by
      unfold Orchestrator.writeStub
      rw [hopen group List.mem_cons_self]
      exact ⟨_, rfl⟩
    obtain ⟨between, hbetween⟩ := hstub
    rw [hbetween]
    exact ih (h.writeStub hbetween) fun other hmem ↦ hopen other (List.mem_cons_of_mem group hmem)

/-! ## Runs which nothing disturbs -/

/-- The reports of a run which is asked for one can be merged into its report. -/
structure ReportsKept (world : World) : Prop where
  directory : ∃ dir, world.reports.mkdtemp = .ok dir
  sessions : CountsOwnCases world.session
  report : world.reports.writeReport = .ok ()

/-- The stubs of the entries which no phase settled can be written. -/
def LeftoversKept (env : RunEnv) (s : LoopState) : Prop :=
  ∀ phase ∈ leftoverPhases env s, env.world.reports.openWrite (junitName phase "-unexecuted") = .ok ()

/-- No exception comes from outside of the exclude block: the context collects step outputs, the
phases are quiet once the names can be read, and the reports can be written. -/
structure Undisturbed (world : World) (config : RunConfig) (options : RunOptions) : Prop where
  collects : ∀ env context, Started world config options env context → context.Collects
  phases : ∀ env context, Started world config options env context →
    (∃ names, env.plan.excludeTests.toSet = .ok names) →
      Loop.Always (visitPhase env) (PhaseQuiet env) env.plan.configPhases { context }
  reports : (options.junitxml.filter (· ≠ "")).isNone = false → ReportsKept world
  leftovers : ∀ env context s, Started world config options env context →
    runPhases env context = .next s → env.tmpdir.isNone = false → LeftoversKept env s

theorem resolveRemaining_isOk (hcollects : s.context.Collects)
    (htests : ∃ names, env.plan.excludeTests.toSet = .ok names) (hfiles : FilesSourced env s)
    (hleftovers : env.tmpdir.isNone = false → LeftoversKept env s) :
    ∃ after, resolveRemaining env s = .ok after ∧ FilesSourced env after := by
  unfold resolveRemaining
  simp only
  split
  · exact ⟨s, rfl, hfiles⟩
  · obtain ⟨decided, hdecided⟩ := decideEntries_isOk hcollects htests
      ((openEntries env s).map Prod.snd)
    rw [hdecided]
    simp only [bind, Except.bind, pure, Except.pure]
    cases htmp : env.tmpdir.isNone with
    | true => exact ⟨_, rfl, hfiles⟩
    | false =>
      obtain ⟨after, hafter, hsourced⟩ := FilesSourced.writeUnexecuted
        (s := { s with resolved := settle s.resolved (((openEntries env s).map Prod.fst).zip
          (decided.map (terminalizeLeftover env s.context.stepPhases.get?))) })
        (byPhase s.context.stepPhases.get?
          (decided.map (terminalizeLeftover env s.context.stepPhases.get?))).entries
        hfiles fun group hgroup ↦ hleftovers htmp group.1
          (mem_leftoverPhases hdecided (List.mem_map_of_mem hgroup))
      simp only [Bool.false_eq_true, if_false, hafter]
      exact ⟨_, rfl, hsourced⟩

theorem mergeReports_isOk (hfiles : FilesSourced env s)
    (hreports : env.tmpdir.isNone = false → ReportsKept env.world) :
    ∃ report, mergeReports env s = .ok report := by
  unfold mergeReports
  cases htmp : env.tmpdir.isNone with
  | true => exact ⟨none, rfl⟩
  | false =>
    split
    · exact ⟨none, rfl⟩
    · have hkept := hreports htmp
      have hdocs : ∀ doc ∈ s.junitFiles.filterMap fun name ↦
          s.files.get? (env.world.reports.locate name),
          ∀ suite ∈ doc.contributed, suite.Consistent := by
        intro doc hdoc
        obtain ⟨name, _, hget⟩ := List.mem_filterMap.mp hdoc
        exact (hfiles _ doc hget).consistent hkept.sessions
      obtain ⟨report, hreport⟩ := mergeJunitXmls_isOk env.world.reports.redact
        (env.plan.entries.map ValidationEntry.name) hdocs
      simp only [hreport, hkept.report, bind, Except.bind]
      exact ⟨_, rfl⟩

/-- Where the names can be read, a run which nothing disturbs finishes. -/
theorem Undisturbed.finishes {world : World} {config : RunConfig} {options : RunOptions}
    {context : Context} (h : Undisturbed world config options)
    (hstart : Started world config options env context)
    (htests : ∃ names, env.plan.excludeTests.toSet = .ok names) :
    ∃ f, run world config options = .finished f := by
  have hreports : env.tmpdir.isNone = false → ReportsKept env.world := by
    intro htmp
    rw [hstart.world]
    apply h.reports
    rcases hstart.directory with ⟨_, hnone⟩ | ⟨hsome, _⟩
    · rw [hnone] at htmp
      cases htmp
    · exact hsome
  obtain ⟨s, hloop, _⟩ := run_quiet (h.phases env context hstart htests)
  have hleftovers := h.leftovers env context s hstart hloop
  have hkept : s.context.Collects ∧ FilesSourced env s :=
    runPhases_rule (I := fun _ s ↦ s.context.Collects ∧ FilesSourced env s)
      ⟨h.collects env context hstart, fun path doc hget ↦ by simp at hget⟩
      (fun _ _ _ _ hdone hvisited ↦ ⟨hvisited.collects hdone.1, hdone.2.visited hvisited⟩) hloop
  obtain ⟨final, hfinal, hfiles⟩ := resolveRemaining_isOk hkept.1 htests hkept.2 hleftovers
  obtain ⟨report, hreport⟩ := mergeReports_isOk hfiles hreports
  rw [hstart.run_eq]
  unfold runPlan
  rw [show runPhases env context = .next s from hloop]
  simp only [hfinal, hreport]
  exact ⟨_, rfl⟩

/-! ## The records of a run are those the plan foretells -/

/-- The cause for which the selection of a run skips an entry. -/
def selectionCause? (env : RunEnv) (tests : List Scalar) (entry : ValidationEntry) :
    Option SkipCause :=
  (planCheck env.plan.options.includeLabels env.plan.excludeLabels tests
    env.plan.options.capability entry).cause?

/-- The record names the cause which the selection has for its entry. -/
def Foretold (env : RunEnv) (tests : List Scalar) (entry : ValidationEntry)
    (record : ResolvedEntry) : Prop := selectionCause? env tests entry = skipCause? record

/-- Every entry has the shape which resolution accepts. -/
def WellShaped (host : Runtime) (entries : List ValidationEntry) : Prop :=
  ∀ entry ∈ entries, validateEntryShape host entry = none

section Foretelling

variable {tests : List Scalar}

theorem foretold_decideEntries {entries : List ValidationEntry} {decided : List ResolvedEntry}
    (hshape : WellShaped env.world.host entries) (htests : env.plan.excludeTests.toSet = .ok tests)
    (h : decideEntries env s entries = .ok decided) :
    List.Forall₂ (Foretold env tests) entries decided := by
  unfold decideEntries at h
  rw [htests] at h
  have hpairs := List.forall₂_iff_zip.mp (mapM_eq_ok_iff.mp h)
  rw [List.forall₂_iff_zip]
  refine ⟨hpairs.1, fun {entry record} hmem ↦ ?_⟩
  exact cause?_planCheck (hshape entry (List.of_mem_zip hmem).1) (hpairs.2 hmem)

theorem skipCause?_of_isReady {record : ResolvedEntry} (h : record.isReady = true) :
    skipCause? record = none := by
  unfold ResolvedEntry.isReady at h
  rw [Bool.and_eq_true, Bool.and_eq_true, Option.isNone_iff_eq_none] at h
  simp [skipCause?, h.1.1]

/-- A session does not change for what cause a record was skipped. -/
theorem PhaseRan.foretold {exec : ExecState} {log : PhaseLog} (h : PhaseRan env s phase exec log s')
    (hshape : WellShaped env.world.host ((phaseEntries env s phase).map Prod.snd))
    (htests : env.plan.excludeTests.toSet = .ok tests) :
    List.Forall₂ (Foretold env tests) ((phaseEntries env s phase).map Prod.snd) log.records := by
  have hexecuted : List.Forall₂ (fun before after ↦ skipCause? before = skipCause? after)
      (log.decided.filter ResolvedEntry.isReady) log.executed := by
    rcases h.session with ⟨_, hnone, hready⟩ | ⟨_, _, captured, _, _, _, _, _, hresults⟩
    · rw [hnone, show log.decided.filter ResolvedEntry.isReady = [] from hready]
      exact .nil
    · have hready : ∀ record ∈ log.ready, record.isReady = true :=
        fun record hmem ↦ (List.mem_filter.mp hmem).2
      have hpairs := (executed_forall₂ captured hready).length_eq
      rw [List.forall₂_iff_zip, hresults]
      refine ⟨hpairs, fun {before after} hmem ↦ ?_⟩
      obtain ⟨hbefore, hafter⟩ := List.of_mem_zip hmem
      rw [skipCause?_of_isReady (hready before hbefore), skipCause?_applyPytestResults hafter]
  obtain ⟨records, hrecords, hkept⟩ := weave_forall₂
    (R := fun before after ↦ skipCause? before = skipCause? after) (fun _ _ _ ↦ rfl) hexecuted
  rw [h.woven, Except.ok.injEq] at hrecords
  rw [hrecords]
  apply forall₂_comp _ (foretold_decideEntries hshape htests h.decided) hkept
  exact fun _ _ _ hdecided hsame ↦ hdecided.trans hsame

theorem skipCause?_terminalizeLeftover (stepPhases : String → Option String)
    (record : ResolvedEntry) :
    skipCause? (terminalizeLeftover env stepPhases record) = skipCause? record := by
  unfold terminalizeLeftover
  cases hready : record.isReady with
  | true =>
    rw [skipCause?_of_isReady hready]
    rfl
  | false => rfl

theorem Remaining.foretold {records : List ResolvedEntry} (h : Remaining env s records s')
    (hshape : WellShaped env.world.host ((openEntries env s).map Prod.snd))
    (htests : env.plan.excludeTests.toSet = .ok tests) :
    List.Forall₂ (Foretold env tests) ((openEntries env s).map Prod.snd) records := by
  obtain ⟨decided, hdecided, rfl⟩ := h.decided
  rw [List.forall₂_map_right_iff]
  apply (foretold_decideEntries hshape htests hdecided).imp
  intro entry record hforetold
  exact hforetold.trans (skipCause?_terminalizeLeftover _ record).symm

theorem wellShaped_openEntries (hshape : WellShaped env.world.host env.plan.entries)
    (pairs : List (ℕ × ValidationEntry)) (hpairs : pairs.Sublist (openEntries env s)) :
    WellShaped env.world.host (pairs.map Prod.snd) := by
  intro entry hentry
  obtain ⟨pair, hpair, rfl⟩ := List.mem_map.mp hentry
  have hget := (mem_openEntries.mp (hpairs.subset hpair)).1
  exact hshape pair.2 (List.mem_of_getElem? hget)

/-- The records of a finished run name the causes of the plan, position by position. -/
theorem FinishedRun.foretold {world : World} {config : RunConfig} {options : RunOptions}
    {f : Finished} (h : FinishedRun world config options f)
    (hshape : WellShaped f.env.world.host f.env.plan.entries)
    (htests : f.env.plan.excludeTests.toSet = .ok tests) (i : ℕ) :
    f.env.plan.entries[i]?.bind (selectionCause? f.env tests) =
      f.result.validations[i]?.bind skipCause? := by
  obtain ⟨context, s, _, hloop, hremaining⟩ := h.loop
  have hs : RecordsMatch (Foretold f.env tests) f.env.plan.entries s.resolved := by
    refine runPhases_rule (I := fun _ s ↦
      RecordsMatch (Foretold f.env tests) f.env.plan.entries s.resolved) ?_ ?_ hloop
    · intro i record hget
      simp at hget
    · intro done phase before after hdone hvisited
      cases hvisited with
      | notRequested _ hstate => rw [hstate]; exact hdone
      | skipped reason _ _ hstate => rw [hstate]; exact hdone
      | executed exec log _ _ hran =>
        have hsublist := phaseEntries_sublist f.env before phase
        rw [hran.resolved, hran.indexes]
        apply hdone.settle hsublist
        exact hran.foretold (wellShaped_openEntries hshape _ hsublist) htests
  have hfinal : RecordsMatch (Foretold f.env tests) f.env.plan.entries f.state.resolved := by
    rcases resolveRemaining_ok hremaining with ⟨_, hsame⟩ | ⟨_, records, hlast⟩
    · rw [hsame]
      exact hs
    · rw [hlast.state]
      apply hs.settle (List.Sublist.refl _)
      exact hlast.foretold (wellShaped_openEntries hshape _ (List.Sublist.refl _)) htests
  have hkeys : ∀ i, i ∈ f.state.resolved.keys ↔ i < f.env.plan.entries.length :=
    fun i ↦ ⟨h.accounted.lt_length, keys_of_resolveRemaining hremaining⟩
  obtain ⟨hlength, hget⟩ := getElem?_sortedRecords hkeys
  rw [h.result]
  change _ = (sortedRecords f.state.resolved)[i]?.bind skipCause?
  by_cases hi : i < f.env.plan.entries.length
  · rw [hget i hi]
    obtain ⟨record, hrecord⟩ := OrderedMap.mem_keys_iff.mp ((hkeys i).mpr hi)
    obtain ⟨entry, hentry, hforetold⟩ := hfinal i record hrecord
    rw [hrecord, hentry]
    exact hforetold
  · rw [List.getElem?_eq_none (by omega), List.getElem?_eq_none (by omega)]
    rfl

end Foretelling

/-! ## Runs which cannot read the names -/

/-- A phase of the plan is open at the start of the loop. -/
def OpensPhase (world : World) (plan : Plan) (context : Context) : Prop :=
  ∃ phase ∈ plan.configPhases, plan.requests phase = true ∧
    gate ⟨world, plan, none⟩ { context } phase = none

/-- Nothing was executed so far, and none of the phases passed over is open. -/
structure IdleSoFar (env : RunEnv) (done : List String) (s : LoopState) : Prop where
  overall : s.overallSuccess = true
  setup : s.setupStepsRan = false
  resolved : s.resolved = .empty
  files : s.junitFiles = []
  closed : ∀ phase ∈ done, env.plan.requests phase = true → gate env s phase ≠ none

theorem gate_congr (phase : String) (s s' : LoopState)
    (hoverall : s.overallSuccess = s'.overallSuccess) (hsetup : s.setupStepsRan = s'.setupStepsRan) :
    gate env s phase = gate env s' phase := by
  unfold gate
  rw [hoverall, hsetup]

theorem idle_initial (env : RunEnv) (context : Context) : IdleSoFar env [] { context } :=
  ⟨rfl, rfl, rfl, rfl, fun _ hmem ↦ absurd hmem List.not_mem_nil⟩

/-- A phase which is passed over leaves the loop idle. -/
theorem IdleSoFar.passed {done : List String} (h : IdleSoFar env done s)
    (hstate : s'.overallSuccess = s.overallSuccess ∧ s'.setupStepsRan = s.setupStepsRan ∧
      s'.resolved = s.resolved ∧ s'.junitFiles = s.junitFiles)
    (hclosed : env.plan.requests phase = true → gate env s phase ≠ none) :
    IdleSoFar env (done ++ [phase]) s' := by
  obtain ⟨hoverall, hsetup, hresolved, hfiles⟩ := hstate
  refine ⟨hoverall.trans h.overall, hsetup.trans h.setup, hresolved.trans h.resolved,
    hfiles.trans h.files, ?_⟩
  intro other hmem hrequested
  rw [gate_congr other s' s hoverall hsetup]
  rcases List.mem_append.mp hmem with hold | hlast
  · exact h.closed other hold hrequested
  · rw [List.mem_singleton.mp hlast] at hrequested ⊢
    exact hclosed hrequested

/-- A finished run which had something to decide could read the names. -/
theorem FinishedRun.readsTests {world : World} {config : RunConfig} {options : RunOptions}
    {f : Finished} {context : Context} (h : FinishedRun world config options f)
    (hprepare : prepare f.env.world.host config options = .ok (.ready f.env.plan context))
    (hconsulted : f.env.plan.entries ≠ [] ∨ OpensPhase world f.env.plan context) :
    ∃ names, f.env.plan.excludeTests.toSet = .ok names := by
  by_contra hunread
  have hnone : ∀ s entries decided, decideEntries f.env s entries ≠ .ok decided := by
    intro s entries decided hdecided
    unfold decideEntries at hdecided
    cases hset : f.env.plan.excludeTests.toSet with
    | ok names => exact hunread ⟨names, hset⟩
    | error raised => rw [hset] at hdecided; cases hdecided
  obtain ⟨found, s, hfound, hloop, hremaining⟩ := h.loop
  rw [hprepare] at hfound
  cases hfound
  have hidle : IdleSoFar f.env f.env.plan.configPhases s := by
    refine runPhases_rule (I := IdleSoFar f.env) (idle_initial f.env context) ?_ hloop
    intro done phase before after hdone hvisited
    cases hvisited with
    | notRequested hrequested hstate =>
      rw [hstate]
      exact hdone.passed ⟨rfl, rfl, rfl, rfl⟩ fun h ↦ by rw [hrequested] at h; cases h
    | skipped reason _ hgate hstate =>
      rw [hstate]
      exact hdone.passed ⟨rfl, rfl, rfl, rfl⟩ fun _ ↦ by rw [hgate]; simp
    | executed exec log _ _ hran => exact absurd hran.decided (hnone _ _ _)
  rcases hconsulted with hentries | ⟨phase, hmem, hrequested, hgate⟩
  · rcases resolveRemaining_ok hremaining with ⟨hopen, _⟩ | ⟨_, records, hlast⟩
    · apply hentries
      rw [List.eq_nil_iff_forall_not_mem]
      intro entry hentry
      obtain ⟨i, hi, rfl⟩ := List.getElem_of_mem hentry
      have hpair : (i, f.env.plan.entries[i]) ∈ openEntries f.env s := by
        rw [mem_openEntries]
        exact ⟨List.getElem?_eq_getElem hi, by simp [hidle.resolved]⟩
      rw [hopen] at hpair
      cases hpair
    · obtain ⟨decided, hdecided, _⟩ := hlast.decided
      exact hnone _ _ _ hdecided
  · apply hidle.closed phase hmem hrequested
    rw [gate_congr phase s { context } hidle.overall hidle.setup]
    exact hgate

/-- Without entries and without an open phase a run finishes and resolves nothing. -/
theorem Started.finishes_idle {world : World} {config : RunConfig} {options : RunOptions}
    {context : Context} (h : Started world config options env context)
    (hentries : env.plan.entries = []) (hclosed : ¬OpensPhase world env.plan context) :
    ∃ f, run world config options = .finished f ∧ f.result.validations = [] := by
  have hloop : ∃ s, runPhases env context = .next s ∧ IdleSoFar env env.plan.configPhases s := by
    unfold runPhases
    refine Loop.run_rule (I := IdleSoFar env)
      (Q := fun signal ↦ ∃ s, signal = .next s ∧ IdleSoFar env env.plan.configPhases s)
      (idle_initial env context) ?_ (fun s hs ↦ ⟨s, rfl, hs⟩)
    intro done phase rest s hphases hdone
    unfold visitPhase
    cases hrequested : env.plan.requests phase with
    | false =>
      simp only [Bool.not_false, if_true]
      exact hdone.passed ⟨rfl, rfl, rfl, rfl⟩ fun h ↦ by rw [hrequested] at h; cases h
    | true =>
      simp only [Bool.not_true, Bool.false_eq_true, if_false]
      cases hgate : gate env s phase with
      | some reason => exact hdone.passed ⟨rfl, rfl, rfl, rfl⟩ fun _ ↦ by rw [hgate]; simp
      | none =>
        apply absurd _ hclosed
        refine ⟨phase, by rw [hphases]; simp, hrequested, ?_⟩
        rw [gate_congr phase s { context } hdone.overall hdone.setup] at hgate
        exact hgate
  obtain ⟨s, hloop, hidle⟩ := hloop
  have hopen : openEntries env s = [] := by
    unfold openEntries
    rw [hentries]
    rfl
  have hlast : resolveRemaining env s = .ok s := by
    unfold resolveRemaining
    simp only [hopen, List.isEmpty_nil, if_true]
  have hmerge : mergeReports env s = .ok none := by
    unfold mergeReports
    rw [hidle.files, List.isEmpty_nil, Bool.or_true, if_pos rfl]
  rw [h.run_eq]
  unfold runPlan
  simp only [hloop, hlast, hmerge]
  refine ⟨_, rfl, ?_⟩
  change sortedRecords s.resolved = []
  rw [hidle.resolved]
  rfl

/-! ## The dry run and the run -/

/-- The records of a run which ended without an exception; one answered early has none. -/
def RunOutcome.validations? : RunOutcome → Option (List ResolvedEntry)
  | early result => some result.validations
  | finished f => some f.result.validations
  | raised _ _ => none

/-- Both complete, and the plan names for every check the cause for which the run skipped its entry
at resolution, and no cause where the run did not. -/
def DryRunPredicts (world : World) (config : RunConfig) (options : RunOptions) : Prop :=
  ∃ plan records, humanReadableDryRun world.host config options = .ok plan ∧
    (run world config options).validations? = some records ∧
    ∀ i : ℕ, plan.checks[i]?.bind PlanLine.cause? = records[i]?.bind skipCause?

/-- What the run needs of the exclude block: the labels are strings where they are consulted, and
the names are strings unless there is nothing to decide, where any false value will do. -/
structure ExcludeReadable (world : World) (config : RunConfig) (options : RunOptions) (plan : Plan)
    (context : Context) : Prop where
  labels : options.excludesConfigured = true →
    NamesOnly (excludedValue (config.tests.getD {}).exclude "labels")
  tests : NamesOnly (excludedValue (config.tests.getD {}).exclude "tests") ∨
    plan.entries = [] ∧ ¬OpensPhase world plan context ∧
      (excludedValue (config.tests.getD {}).exclude "tests").truthy = false

theorem excludedOrEmpty_of_truthy {exclude : Items} {key : String}
    (h : (excludedValue exclude key).truthy = true) :
    excludedOrEmpty exclude key = excludedValue exclude key := by
  unfold excludedOrEmpty
  unfold excludedValue at h ⊢
  cases hlookup : exclude.lookup (Scalar.str key) with
  | none => rw [hlookup] at h; cases h
  | some value =>
    rw [hlookup] at h
    exact if_pos h

theorem excludedOrEmpty_of_not_truthy {exclude : Items} {key : String}
    (h : (excludedValue exclude key).truthy = false) : excludedOrEmpty exclude key = .list [] := by
  unfold excludedOrEmpty
  unfold excludedValue at h
  cases hlookup : exclude.lookup (Scalar.str key) with
  | none => rfl
  | some value =>
    rw [hlookup, Option.getD_some] at h
    simp [h]

/-- How a run comes to the loop once the labels are read. -/
theorem Undisturbed.started {world : World} {config : RunConfig} {options : RunOptions} {plan : Plan}
    {context : Context} (h : Undisturbed world config options)
    (hprepare : prepare world.host config options = .ok (.ready plan context)) :
    ∃ tmpdir, Started world config options ⟨world, plan, tmpdir⟩ context := by
  cases hjunit : (options.junitxml.filter (· ≠ "")).isNone with
  | true => exact ⟨none, rfl, hprepare, Or.inl ⟨hjunit, rfl⟩⟩
  | false =>
    obtain ⟨dir, hdir⟩ := (h.reports hjunit).directory
    exact ⟨some dir, rfl, hprepare, Or.inr ⟨hjunit, dir, hdir, rfl⟩⟩

/-- A run which came to the loop and has records is finished. -/
theorem Started.finished_of_records {world : World} {config : RunConfig} {options : RunOptions}
    {context : Context} {records : List ResolvedEntry}
    (h : Started world config options env context)
    (hrecords : (run world config options).validations? = some records) :
    ∃ f, run world config options = .finished f := by
  rw [h.run_eq] at hrecords ⊢
  unfold runPlan at hrecords ⊢
  cases hphases : runPhases env context with
  | raise raised s => rw [hphases] at hrecords; cases hrecords
  | halt s => exact absurd hphases (runPhases_goesOn env context s)
  | next s =>
    simp only [hphases] at hrecords ⊢
    cases hlast : resolveRemaining env s with
    | error raised => rw [hlast] at hrecords; cases hrecords
    | ok final =>
      simp only [hlast] at hrecords ⊢
      cases hmerge : mergeReports env final with
      | error raised => rw [hmerge] at hrecords; cases hrecords
      | ok report => exact ⟨_, rfl⟩

/-- Among the runs which come to the loop and which nothing else disturbs, the dry run predicts
exactly those which can read the exclude block. -/
theorem dry_run_predicts_iff {world : World} {config : RunConfig} {options : RunOptions} {plan : Plan}
    {context : Context}
    (hshape : WellShaped world.host (parseValidations world.host (config.tests.getD {}).validations))
    (hready : prepare world.host (clearExclude config) options = .ok (.ready plan context))
    (hquiet : Undisturbed world config options) :
    DryRunPredicts world config options ↔ ExcludeReadable world config options plan context := by
  have hprepare := prepare_clearExclude hready
  have hentries : plan.entries = parseValidations world.host (config.tests.getD {}).validations := by
    rw [(prepare_ready hready).entries, getD_clearExclude]
  have hoptions : plan.options = options := (prepare_ready hready).options
  constructor
  · rintro ⟨rendered, records, hrendered, hrecords, _⟩
    obtain ⟨labels, tests, hreads⟩ := planReads_of_ok hrendered
    cases hlabels : resolutionExcludeLabels options (config.tests.getD {}).exclude with
    | error raised =>
      rw [hlabels] at hprepare
      rw [run, hprepare] at hrecords
      cases hrecords
    | ok excluded =>
      have hsame := (rejectedLabels_eq hlabels).symm.trans hreads.labels
      rw [Except.ok.injEq] at hsame
      constructor
      · exact (resolutionExcludeLabels_names_iff options _).mp ⟨labels, hsame ▸ hlabels⟩
      · rw [hlabels] at hprepare
        by_cases hconsulted : plan.entries ≠ [] ∨ OpensPhase world plan context
        · obtain ⟨tmpdir, hstart⟩ := hquiet.started hprepare
          obtain ⟨f, hf⟩ := hstart.finished_of_records hrecords
          obtain ⟨henv, _⟩ := hstart.finished hf
          have hrun := run_finished hf
          have hread := @FinishedRun.readsTests world config options f context hrun
          rw [henv] at hread
          obtain ⟨names, hnames⟩ := hread hprepare hconsulted
          have htests := (toSet_excludedOrEmpty hnames).symm.trans hreads.tests
          rw [Except.ok.injEq] at htests
          exact Or.inl ⟨tests, htests ▸ hnames⟩
        · rw [not_or, not_ne_iff] at hconsulted
          cases htruthy : (excludedValue (config.tests.getD {}).exclude "tests").truthy with
          | false => exact Or.inr ⟨hconsulted.1, hconsulted.2, rfl⟩
          | true =>
            have htests := hreads.tests
            rw [excludedOrEmpty_of_truthy htruthy] at htests
            exact Or.inl ⟨tests, htests⟩
  · intro hreadable
    obtain ⟨labels, hlabels⟩ :=
      (resolutionExcludeLabels_names_iff options _).mpr hreadable.labels
    rw [hlabels] at hprepare
    obtain ⟨tmpdir, hstart⟩ := hquiet.started hprepare
    rcases hreadable.tests with ⟨tests, htests⟩ | ⟨hnone, hclosed, hfalse⟩
    · obtain ⟨f, hf⟩ := hquiet.finishes hstart ⟨_, htests⟩
      obtain ⟨henv, _⟩ := hstart.finished hf
      have hreads : PlanReads config options labels tests :=
        ⟨rejectedLabels_eq hlabels, toSet_excludedOrEmpty htests⟩
      obtain ⟨head, hhead⟩ := humanReadableDryRun_ok world.host hreads
      refine ⟨_, _, hhead, congrArg RunOutcome.validations? hf, fun i ↦ ?_⟩
      have hforetold := @FinishedRun.foretold (tests.map .str) world config options f (run_finished hf)
      rw [henv] at hforetold
      rw [← hforetold (hentries ▸ hshape) htests, ← hentries, List.getElem?_map, Option.bind_map, ← hoptions]
      rfl
    · obtain ⟨f, hf, hvalidations⟩ := hstart.finishes_idle hnone hclosed
      have hreads : PlanReads config options labels [] :=
        ⟨rejectedLabels_eq hlabels, by rw [excludedOrEmpty_of_not_truthy hfalse]; rfl⟩
      obtain ⟨head, hhead⟩ := humanReadableDryRun_ok world.host hreads
      refine ⟨_, _, hhead, congrArg RunOutcome.validations? hf, fun i ↦ ?_⟩
      rw [← hentries, hnone, hvalidations]
      rfl

/-! ## Concrete configurations -/

/-- A suite without commands: one check, another one with a label, and an exclude block. -/
def excludingSuite (exclude : Items) : RunConfig :=
  { tests := some
      { validations := [(.str "checks", .list
          [.dict [(.str "PingCheck", .dict [])],
            .dict [(.str "DiskCheck", .dict [(.str "labels", .list [.str "slow"])])]])]
        exclude } }

/-- Without steps and with one phase, whose session can be configured, nothing raises; the report
files are those of this phase. -/
def quietSuite (start : RunEnv × Context) : Bool :=
  let (env, context) := start
  let s : LoopState := { context }
  let after := afterSteps env s "test"
    (executeSteps env.world.host (env.plan.phaseSteps env.world.host "test") s.context s.tick
      false).state
  env.plan.steps.isEmpty && (env.plan.entries.all fun entry ↦ entry.phase.isNone && entry.step.isNone) &&
    decide (env.plan.configPhases = ["test"]) &&
    (match context.data.lookup (.str "steps") with
      | some (.dict _) => true
      | _ => false) &&
    match decideEntries env after ((phaseEntries env s "test").map Prod.snd) with
    | .ok decided => (phaseRequest env after "test" (decided.filter ResolvedEntry.isReady)).all
        SessionRequest.jsonable
    | .error _ => true

theorem collects_quietSuite {context : Context} (h : quietSuite (env, context) = true) :
    context.Collects := by
  simp only [quietSuite, Bool.and_eq_true] at h
  have hlookup := h.1.2
  unfold Context.Collects
  split at hlookup
  · exact ⟨_, by assumption⟩
  · cases hlookup

/-- The files of the phase `test` can be written. -/
theorem openWrite_filing : ∀ suffix ∈ "-unexecuted" :: stubSuffixes,
    World.filing.reports.openWrite (junitName "test" suffix) = .ok () := by
  decide +kernel

theorem leftoversKept_quietSuite {context : Context} (hworld : env.world = .filing)
    (h : quietSuite (env, context) = true) (s : LoopState) : LeftoversKept env s := by
  simp only [quietSuite, Bool.and_eq_true, List.all_eq_true, Option.isNone_iff_eq_none] at h
  have hentries := h.1.1.1.2
  intro phase hphase
  obtain ⟨⟨i, entry⟩, hmem, rfl⟩ := List.mem_map.mp hphase
  obtain ⟨hnone, hstep⟩ := hentries entry (List.mem_of_getElem? (mem_openEntries.mp hmem).1)
  have hphase : getEntryPhase entry s.context.stepPhases.get? = "test" := by
    rw [getEntryPhase, hnone, hstep]
    rfl
  simp only [hphase, hworld]
  exact openWrite_filing _ List.mem_cons_self

theorem always_quietSuite {context : Context} (hworld : env.world = .filing)
    (h : quietSuite (env, context) = true)
    (htests : ∃ names, env.plan.excludeTests.toSet = .ok names) :
    Loop.Always (visitPhase env) (PhaseQuiet env) env.plan.configPhases { context } := by
  have hcollects := collects_quietSuite h
  simp only [quietSuite, Bool.and_eq_true, List.isEmpty_iff, decide_eq_true_eq] at h
  obtain ⟨⟨⟨⟨hsteps, _⟩, hphases⟩, _⟩, hjson⟩ := h
  have hnone : ∀ phase, env.plan.phaseSteps env.world.host phase = [] := by
    intro phase
    unfold Plan.phaseSteps
    rw [hsteps]
    rfl
  rw [hphases]
  refine ⟨fun _ _ ↦ ⟨⟨hcollects, ?_⟩, ⟨?_, htests, ?_, ?_⟩⟩, ?_⟩
  · rw [hnone]
    trivial
  · rw [hnone]
    trivial
  · constructor
    · intro _
      rw [hworld]
      decide +kernel
    · intro _ suffix hsuffix
      rw [hworld]
      exact openWrite_filing suffix (List.mem_cons_of_mem _ hsuffix)
  · intro exec decided request hexec hdecided hrequest
    rw [hexec] at hdecided hrequest
    rw [show decide ("test" = "teardown") = false from rfl] at hdecided hrequest
    rw [hdecided] at hjson
    simp only [hrequest, Option.all_some] at hjson
    exact ⟨hjson, by rw [hworld]; exact ⟨_, _, _, rfl⟩⟩
  · cases visitPhase env "test" { context } with
    | next after => trivial
    | halt after => trivial
    | raise raised after => trivial

/-- The sessions of the plain machine write no report. -/
theorem reportsKept_filing : ReportsKept .filing := by
  refine ⟨⟨_, rfl⟩, ?_, rfl⟩
  intro index request exitCode captured doc hreturned
  cases hreturned

theorem dry_run_predicts_labels : DryRunPredicts .filing
    (excludingSuite [(.str "labels", .list [.str "slow"])]) { junitxml := some "report.xml" } := by
  obtain ⟨cleared, context, hcleared, _⟩ := exists_started .filing
    (clearExclude (excludingSuite [(.str "labels", .list [.str "slow"])]))
    { junitxml := some "report.xml" } (fun _ ↦ true) (by decide +kernel)
  obtain ⟨env, found, hstart, hsuite⟩ := exists_started .filing
    (excludingSuite [(.str "labels", .list [.str "slow"])]) { junitxml := some "report.xml" }
    quietSuite (by decide +kernel)
  have hready := hcleared.prepared
  rw [hcleared.world] at hready
  have hquiet : Undisturbed .filing (excludingSuite [(.str "labels", .list [.str "slow"])])
      { junitxml := some "report.xml" } := by
    constructor
    · intro other start hother
      obtain ⟨rfl, rfl⟩ := hother.unique hstart
      exact collects_quietSuite hsuite
    · intro other start hother htests
      obtain ⟨rfl, rfl⟩ := hother.unique hstart
      exact always_quietSuite hother.world hsuite htests
    · exact fun _ ↦ reportsKept_filing
    · intro other start s hother _ _
      obtain ⟨rfl, rfl⟩ := hother.unique hstart
      exact leftoversKept_quietSuite hother.world hsuite s
  apply (dry_run_predicts_iff ?_ hready hquiet).mpr
  · exact ⟨fun _ ↦ ⟨["slow"], rfl⟩, Or.inl ⟨[], rfl⟩⟩
  · unfold WellShaped
    decide +kernel

/-- An exclude block with the key `labels` and no value under it. -/
theorem null_labels_unpredicted :
    accepted .plain (excludingSuite [(.str "labels", .null)]) = true ∧
      WellShaped .plain (parseValidations .plain
        ((excludingSuite [(.str "labels", .null)]).tests.getD {}).validations) ∧
      (humanReadableDryRun .plain (excludingSuite [(.str "labels", .null)]) {}).isOk = true ∧
      ¬DryRunPredicts .plain (excludingSuite [(.str "labels", .null)]) {} := by
  refine ⟨by decide +kernel, ?_, by decide +kernel, ?_⟩
  · unfold WellShaped
    decide +kernel
  · rintro ⟨plan, records, _, hrecords, _⟩
    have hraised : (run .plain (excludingSuite [(.str "labels", .null)]) {}).validations?.isSome =
        false := by decide +kernel
    rw [hrecords] at hraised
    cases hraised

end IsvValidation.Orchestrator
