import IsvValidation.Orchestrator.Filing

/-!
# The merged report

A file which is listed twice is merged twice. The only file which a run with fresh paths can list
again is the report of an earlier execution of the same phase, found by a phase which has no open
entries left. The merged report is faithful exactly when such a file holds no test case and no
session reports a test case with two outcomes.
-/

namespace IsvValidation.Orchestrator

open Config Host Junit Library Pytest Resolution

variable {env : RunEnv} {s s' : LoopState} {phase : String} {docs : List JUnitDoc}

/-- The counters in the report of every session are the numbers of its own test cases. -/
def CountsOwnCases (session : ℕ → SessionRequest → SessionOutcome) : Prop :=
  ∀ index request exitCode captured doc,
    session index request = .returned exitCode captured (some doc) →
      ∀ suite ∈ doc.contributed, suite.Consistent

/-- A phase which is about to be executed finds no report of its own with test cases. -/
def RelistsNothing (env : RunEnv) (phase : String) (s : LoopState) : Prop :=
  env.plan.requests phase = true → gate env s phase = none →
    reportPath env phase "" ∈ listedFiles env s →
      ((s.files.get? (reportPath env phase "")).map JUnitDoc.cases).getD [] = []

instance (env : RunEnv) (phase : String) : DecidablePred (RelistsNothing env phase) := fun _ ↦
  inferInstanceAs (Decidable (_ → _ → _ → _))

/-- No test case in the report of a phase's session has two outcomes. -/
def SingleOutcomes (log : PhaseLog) : Prop :=
  ∀ case ∈ (log.document.map JUnitDoc.cases).getD [], case.Single

instance (log : PhaseLog) : Decidable (SingleOutcomes log) :=
  inferInstanceAs (Decidable (∀ case ∈ _, _))

/-- A file with test cases is listed more than once. -/
def Doubled (env : RunEnv) (s : LoopState) : Prop :=
  ∃ path doc, 2 ≤ (listedFiles env s).count path ∧ s.files.get? path = some doc ∧ doc.cases ≠ []

/-! ## What a phase lists again -/

theorem doubled_append {added : List JUnitDoc} {paths : List String} (h : Filing env s docs)
    (hafter : Filing env s' (docs ++ added)) (hlisted : listedFiles env s' = listedFiles env s ++ paths)
    (hnodup : paths.Nodup) (hnew : ∀ path ∈ paths, path ∉ listedFiles env s) :
    Doubled env s' ↔ Doubled env s := by
  have hkeeps : ∀ path, 2 ≤ (listedFiles env s).count path →
      s'.files.get? path = s.files.get? path := by
    intro path htwo
    apply h.keeps hafter hlisted
    apply List.count_pos_iff.mp
    omega
  unfold Doubled
  simp only [hlisted, two_le_count_append hnodup hnew]
  constructor
  · rintro ⟨path, doc, htwo, hdoc, hcases⟩
    exact ⟨path, doc, htwo, (hkeeps path htwo) ▸ hdoc, hcases⟩
  · rintro ⟨path, doc, htwo, hdoc, hcases⟩
    exact ⟨path, doc, htwo, (hkeeps path htwo).trans hdoc, hcases⟩

theorem stubPaths_sublist (env : RunEnv) (phase suffix : String) (records : List ResolvedEntry) :
    List.Sublist (stubPaths env phase suffix records) [reportPath env phase suffix] := by
  unfold stubPaths
  split
  · exact List.nil_sublist _
  · exact List.Sublist.refl _

theorem paths_sublist (env : RunEnv) (phase : String) (log : PhaseLog) :
    List.Sublist (log.paths env phase) [reportPath env phase "-resolved", reportPath env phase "",
      reportPath env phase "-deselected"] := by
  have hreport : List.Sublist (log.document.map fun _ ↦ reportPath env phase "").toList
      [reportPath env phase ""] := by
    cases log.document with
    | none => exact List.nil_sublist _
    | some doc => exact List.Sublist.refl _
  exact ((stubPaths_sublist env phase "-resolved" log.preResolved).append hreport).append
    (stubPaths_sublist env phase "-deselected" log.missing)

/-- A phase with open entries lists new files only; a phase without them lists the report which it
finds at its path, and that one was listed before. -/
theorem PhaseRan.doubled {exec : ExecState} {log : PhaseLog} {dir : String}
    (h : PhaseRan env s phase exec log s') (hs : Filing env s docs) (hdir : env.tmpdir = some dir)
    (hfresh : FreshPaths env phase s) :
    Doubled env s' ↔ Doubled env s ∨ ¬(reportPath env phase "" ∈ listedFiles env s →
      ((s.files.get? (reportPath env phase "")).map JUnitDoc.cases).getD [] = []) := by
  have hfiled := h.filed hs hdir hfresh
  by_cases hopen : phaseEntries env s phase = []
  · have hdocument := hfiled.idle hopen
    obtain ⟨hresolved, hexecuted, _⟩ := h.idle hopen
    have hpaths : log.paths env phase =
        ((s.files.get? (reportPath env phase "")).map fun _ ↦ reportPath env phase "").toList := by
      rw [PhaseLog.paths, PhaseLog.missing, hresolved, hexecuted, entriesMissingFromJunit_nil,
        ← hdocument]
      simp [stubPaths]
    have hlisted := hfiled.listed
    rw [hpaths] at hlisted
    cases hfound : s.files.get? (reportPath env phase "") with
    | none =>
      rw [hfound] at hlisted
      rw [doubled_append hs hfiled.filing hlisted List.nodup_nil (by simp)]
      simp
    | some doc =>
      rw [hfound] at hlisted
      have hold := hs.known _ (OrderedMap.mem_keys_iff.mpr ⟨doc, hfound⟩)
      have hkeeps : ∀ path ∈ listedFiles env s, s'.files.get? path = s.files.get? path :=
        fun path ↦ hs.keeps hfiled.filing hfiled.listed
      unfold Doubled
      simp only [hlisted, Option.map_some, Option.toList_some, two_le_count_concat hold,
        Option.getD_some, hold, forall_const]
      constructor
      · rintro ⟨path, other, htwo | rfl, hother, hcases⟩
        · have hmem := List.count_pos_iff.mp (Nat.lt_of_lt_of_le Nat.two_pos htwo)
          exact Or.inl ⟨path, other, htwo, (hkeeps path hmem) ▸ hother, hcases⟩
        · rw [hkeeps _ hold, hfound, Option.some.injEq] at hother
          exact Or.inr (hother ▸ hcases)
      · rintro (⟨path, other, htwo, hother, hcases⟩ | hcases)
        · have hmem := List.count_pos_iff.mp (Nat.lt_of_lt_of_le Nat.two_pos htwo)
          exact ⟨path, other, Or.inl htwo, (hkeeps path hmem).trans hother, hcases⟩
        · exact ⟨_, doc, Or.inr rfl, (hkeeps _ hold).trans hfound, hcases⟩
  · have hsublist := paths_sublist env phase log
    rw [doubled_append hs hfiled.filing hfiled.listed (hsublist.nodup (hfresh.distinct hopen))]
    · simp [hfresh.report hopen]
    · intro path hpath
      have hmem := hsublist.subset hpath
      simp only [List.mem_cons, List.not_mem_nil, or_false] at hmem
      rcases hmem with rfl | rfl | rfl
      · exact hfresh.resolved hopen
      · exact hfresh.report hopen
      · exact hfresh.deselected hopen

theorem Visited.doubled {dir : String} (h : Visited env s phase s') (hs : Filed env s)
    (hdir : env.tmpdir = some dir) (hfresh : WritesFreshly env phase s) :
    Doubled env s' ↔ Doubled env s ∨ ¬RelistsNothing env phase s := by
  cases h with
  | notRequested hrequested hstate =>
    have hsame : Doubled env s' ↔ Doubled env s := by rw [hstate]; exact Iff.rfl
    simp [hsame, RelistsNothing, hrequested]
  | skipped reason _ hgate hstate =>
    have hsame : Doubled env s' ↔ Doubled env s := by rw [hstate]; exact Iff.rfl
    simp [hsame, RelistsNothing, hgate]
  | executed exec log hrequested hgate hran =>
    rw [hran.doubled hs.filing hdir (hfresh hrequested hgate), RelistsNothing]
    simp only [hrequested, hgate, forall_const]

/-- A run with fresh paths lists no test case twice exactly when no phase lists its report again. -/
theorem relistsNothing_iff {dir : String} {context : Context} (hdir : env.tmpdir = some dir)
    (hfresh : Loop.Always (visitPhase env) (WritesFreshly env) env.plan.configPhases { context })
    (h : runPhases env context = .next s) :
    Loop.Always (visitPhase env) (RelistsNothing env) env.plan.configPhases { context } ↔
      ¬Doubled env s := by
  refine hfresh.iff_not_defect (I := Filed env) (D := Doubled env) (filed_initial env context)
    ?_ ?_ h
  · rintro ⟨path, doc, htwo, _⟩
    simp [listedFiles] at htwo
  · intro phase before after hnew hbefore hvisit
    have hvisited := visitPhase_next hvisit
    exact ⟨hvisited.filed hbefore hdir hnew, hvisited.doubled hbefore hdir hnew⟩

/-! ## The documents of the run -/

theorem Sourced.consistent {doc : JUnitDoc} (h : Sourced env doc)
    (hsession : CountsOwnCases env.world.session) : ∀ suite ∈ doc.contributed, suite.Consistent := by
  cases h with
  | stub phase records written =>
    rw [written]
    exact consistent_writeTerminalJunitXml records _
  | session index request exitCode captured returned =>
    exact hsession index request exitCode captured doc returned

theorem single_writeTerminalJunitXml (records : List ResolvedEntry) (name : String) :
    ∀ case ∈ (writeTerminalJunitXml records name).cases, case.Single := by
  intro case hcase
  obtain ⟨record, _, hstub⟩ := mem_cases_writeTerminalJunitXml hcase
  exact single_stubCase hstub

theorem single_stubDocuments {phase : String} {records : List ResolvedEntry} :
    ∀ doc ∈ stubDocuments env phase records, ∀ case ∈ doc.cases, case.Single := by
  intro doc hdoc
  unfold stubDocuments at hdoc
  split at hdoc
  · cases hdoc
  · rw [List.mem_singleton.mp hdoc]
    exact single_writeTerminalJunitXml records _

/-- Stubs have one outcome each, so only the reports of sessions matter. -/
theorem single_documents_iff {visits : List Visit} {stepPhases : String → Option String}
    {leftovers : List ResolvedEntry} :
    (∀ doc ∈ visitDocuments env visits ++ leftoverDocuments env stepPhases leftovers,
        ∀ case ∈ doc.cases, case.Single) ↔
      ∀ log ∈ visits.filterMap Visit.log?, SingleOutcomes log := by
  constructor
  · intro hall log hlog case hcase
    obtain ⟨visit, hvisit, hsome⟩ := List.mem_filterMap.mp hlog
    cases visit with
    | notRequested name => cases hsome
    | skipped name reason => cases hsome
    | executed name found =>
      cases hsome
      cases hdoc : log.document with
      | none => simp [hdoc] at hcase
      | some doc =>
        rw [hdoc] at hcase
        apply hall doc _ case hcase
        apply List.mem_append_left
        refine List.mem_flatMap.mpr ⟨_, hvisit, ?_⟩
        simp [Visit.documents, PhaseLog.documents, hdoc]
  · intro hall doc hdoc
    rcases List.mem_append.mp hdoc with hvisits | hleft
    · obtain ⟨visit, hvisit, hmem⟩ := List.mem_flatMap.mp hvisits
      cases visit with
      | notRequested name => cases hmem
      | skipped name reason => cases hmem
      | executed name log =>
        change doc ∈ log.documents env name at hmem
        rw [PhaseLog.documents, List.mem_append, List.mem_append, Option.mem_toList] at hmem
        rcases hmem with (hresolved | hreport) | hmissing
        · exact single_stubDocuments doc hresolved
        · have hsingle := hall log (List.mem_filterMap.mpr ⟨_, hvisit, rfl⟩)
          rwa [SingleOutcomes, show log.document = some doc from hreport] at hsingle
        · exact single_stubDocuments doc hmissing
    · obtain ⟨group, _, rfl⟩ := List.mem_map.mp hleft
      exact single_writeTerminalJunitXml group.2 _

/-! ## The whole run -/

theorem RunFiled.doubled_iff {leftovers : List ResolvedEntry} (h : RunFiled env s leftovers s') :
    Doubled env s' ↔ Doubled env s := by
  have hfiling := h.filing
  rw [h.lastPass.visits] at hfiling
  exact doubled_append h.filed.filing hfiling h.listed h.distinct h.fresh

theorem doubled_iff : ¬Doubled env s ↔ ∀ path, 2 ≤ (listedFiles env s).count path →
    ∀ doc, s.files.get? path = some doc → doc.cases = [] := by
  simp only [Doubled, not_exists, not_and, ne_eq, not_not]
  exact ⟨fun h path htwo doc ↦ h path doc htwo, fun h path doc htwo ↦ h path htwo doc⟩

/-- The report of a run which writes to fresh paths is a faithful merge exactly when no phase finds
its own report with test cases again and no session reports two outcomes for a test case. -/
theorem merge_faithful_iff {world : World} {config : RunConfig} {options : RunOptions}
    {context : Context} {f : Finished} {report : List Suite}
    (hstart : Started world config options env context)
    (hrun : run world config options = .finished f) (hfresh : FreshRun env context)
    (hcounters : CountsOwnCases env.world.session) (hreport : f.report = some report) :
    FaithfulMerge env.world.reports.redact f.state.files.get? (listedFiles env f.state) report ↔
      Loop.Always (visitPhase env) (RelistsNothing env) env.plan.configPhases { context } ∧
        ∀ log ∈ f.state.visits.filterMap Visit.log?, SingleOutcomes log := by
  obtain ⟨henv, s, hloop, hremaining⟩ := hstart.finished hrun
  have hmerge := (run_finished hrun).report
  rw [henv, hreport] at hmerge
  obtain ⟨dir, hdir⟩ : ∃ dir, env.tmpdir = some dir := by
    cases hnone : env.tmpdir with
    | none => simp [mergeReports, hnone] at hmerge
    | some dir => exact ⟨dir, rfl⟩
  obtain ⟨leftovers, hfiled⟩ := (filed_runPhases hdir hfresh.phases hloop).finish hdir
    (hfresh.leftovers s hloop) hremaining
  have hdocs : (listedFiles env f.state).filterMap f.state.files.get? =
      visitDocuments env f.state.visits ++
        leftoverDocuments env s.context.stepPhases.get? leftovers := by
    have hcontents := congrArg (List.filterMap id) hfiled.filing.contents
    simpa only [List.filterMap_map, Function.id_comp, List.filterMap_some] using hcontents
  rcases hfiled.filing.merged hdir hmerge with ⟨_, hnone⟩ | ⟨suites, hsome, hsuites⟩
  · cases hnone
  · cases hsome
    have hconsistent : ∀ path ∈ listedFiles env f.state, ∀ doc,
        f.state.files.get? path = some doc → ∀ suite ∈ doc.contributed, suite.Consistent :=
      fun path hpath doc hdoc ↦
        (hfiled.sourced doc (hfiled.filing.mem_docs hpath hdoc)).consistent hcounters
    rw [← hdocs] at hsuites
    rw [faithfulMerge_iff_files hconsistent hsuites, hdocs, single_documents_iff, ← doubled_iff,
      hfiled.doubled_iff, relistsNothing_iff hdir hfresh.phases hloop]

/-! ## Sessions which write a report -/

/-- A report in which every validation of the request passed. -/
def passingReport (request : SessionRequest) : JUnitDoc :=
  match request.validations.mapM fun item ↦ xmlText? item.1 with
  | some names =>
    .suites [{
      name := xmlText? request.suiteName
      tests := some names.length
      cases := names.map fun name ↦ { name := some name } }]
  | none => .unparsable

/-- The plain machine with sessions in which every validation passes and is reported. -/
def World.reporting : World :=
  { World.plain with
    session := fun _ request ↦ .returned exitOk
      (request.validations.map fun item ↦ { name := item.1, passed := true })
      (request.junitxml.map fun _ ↦ passingReport request) }

theorem children_passingReport {request : SessionRequest} {case : TestCase}
    (h : case ∈ (passingReport request).cases) : case.children = [] := by
  unfold passingReport at h
  split at h
  · simp only [JUnitDoc.cases, JUnitDoc.contributed, List.flatMap_singleton, List.mem_map] at h
    obtain ⟨name, _, rfl⟩ := h
    rfl
  · cases h

theorem countsOwnCases_reporting : CountsOwnCases World.reporting.session := by
  intro index request exitCode captured doc houtcome suite hsuite
  have hdoc : request.junitxml.map (fun _ ↦ passingReport request) = some doc :=
    (SessionOutcome.returned.inj houtcome).2.2
  obtain ⟨_, _, rfl⟩ := Option.map_eq_some_iff.mp hdoc
  have hcount : ∀ tag, suite.count tag = 0 := by
    intro tag
    rw [Suite.count, List.countP_eq_zero.mpr]
    · rfl
    · intro case hcase
      have hchildren := children_passingReport (List.mem_flatMap.mpr ⟨suite, hsuite, hcase⟩)
      simp [TestCase.has, TestCase.find, hchildren]
  unfold passingReport at hsuite
  split at hsuite
  · rw [JUnitDoc.contributed, List.mem_singleton] at hsuite
    subst hsuite
    exact ⟨by simp, by rw [hcount], by rw [hcount], by rw [hcount]⟩
  · cases hsuite

/-- Options of a run with a report. -/
def RunOptions.reported : RunOptions := { junitxml := some "report.xml" }

theorem merge_faithful_lifecycle :
    (run .reporting .lifecycle .reported).Finishes fun f ↦ ∃ report, f.report = some report ∧
      FaithfulMerge World.reporting.reports.redact f.state.files.get? (listedFiles f.env f.state)
        report := by
  obtain ⟨env, context, hstart, hfresh⟩ := exists_started .reporting .lifecycle .reported
    (fun start ↦ decide (FreshRun start.1 start.2 ∧ Loop.Always (visitPhase start.1)
      (RelistsNothing start.1) start.1.plan.configPhases { context := start.2 }))
    (by decide +kernel)
  obtain ⟨hpaths, hlists⟩ := of_decide_eq_true hfresh
  have hchecked : (run .reporting .lifecycle .reported).Finishes fun f ↦ f.report.isSome ∧
      ∀ log ∈ f.state.visits.filterMap Visit.log?, SingleOutcomes log := by decide +kernel
  obtain ⟨f, hrun, hsome, hsingle⟩ := hchecked.exists_finished
  rw [hrun]
  obtain ⟨report, hreport⟩ := Option.isSome_iff_exists.mp hsome
  have hcounters : CountsOwnCases env.world.session := by
    rw [hstart.world]
    exact countsOwnCases_reporting
  refine ⟨report, hreport, ?_⟩
  have hfaithful := (merge_faithful_iff hstart hrun hpaths hcounters hreport).mpr ⟨hlists, hsingle⟩
  rwa [hstart.world, ← (hstart.finished hrun).1] at hfaithful

/-- One validation in a phase which is listed twice. -/
def RunConfig.testedTwice : RunConfig :=
  .sample ["test", "test"] [{ name := "probe", command := "probe.sh", phase := "test" }]
    [.dict [(.str "PingCheck", .dict [])]]

/-- A phase which is listed twice has its report merged twice. -/
theorem report_merged_twice :
    accepted .plain RunConfig.testedTwice = true ∧
      CountsOwnCases World.reporting.session ∧
      (run .reporting RunConfig.testedTwice .reported).Finishes fun f ↦ ∃ report, f.report = some report ∧
          ¬FaithfulMerge World.reporting.reports.redact f.state.files.get?
            (listedFiles f.env f.state) report := by
  refine ⟨by decide +kernel, countsOwnCases_reporting, ?_⟩
  have hchecked : (run .reporting RunConfig.testedTwice .reported).Finishes fun f ↦ f.report.any fun report ↦
        decide ((reported report "vm/test").card = 2 ∧
          (contribution World.reporting.reports.redact f.state.files.get?
            (listedFiles f.env f.state).dedup "vm/test").card = 1) := by decide +kernel
  obtain ⟨f, hrun, hfound⟩ := hchecked.exists_finished
  rw [hrun]
  obtain ⟨report, hreport, hcards⟩ := (Option.any_eq_true _ _).mp hfound
  obtain ⟨htwice, honce⟩ := of_decide_eq_true hcards
  refine ⟨report, hreport, fun hfaithful ↦ ?_⟩
  rw [hfaithful.cases, honce] at htwice
  omega

end IsvValidation.Orchestrator
