import IsvValidation.Junit.Totals
import IsvValidation.Orchestrator.Outcome

/-!
# The report files of a run

Every file which a run writes or finds is listed for the merge. A path which denotes a file listed
before replaces that file's content or lists it again. Where the paths are fresh, the files listed
are exactly the stubs and session reports of the phases, in order and with the content they were
written with.
-/

namespace IsvValidation.Orchestrator

open Config Host Junit Library Pytest Resolution

variable {env : RunEnv} {s s' : LoopState} {phase suffix : String} {records : List ResolvedEntry}
  {docs : List JUnitDoc}

/-- The file which a phase's path denotes. -/
def reportPath (env : RunEnv) (phase suffix : String) : String :=
  env.world.reports.locate (junitName phase suffix)

/-- The files listed so far. -/
def listedFiles (env : RunEnv) (s : LoopState) : List String :=
  s.junitFiles.map env.world.reports.locate

/-! ## The documents of a phase -/

/-- The stub for some records, where there is something to write. -/
def stubDocuments (env : RunEnv) (phase : String) (records : List ResolvedEntry) : List JUnitDoc :=
  if records.isEmpty then [] else [writeTerminalJunitXml records (suiteName env phase)]

/-- The executed records which the session's report does not list. -/
def PhaseLog.missing (log : PhaseLog) : List ResolvedEntry :=
  entriesMissingFromJunit log.executed log.document

/-- The documents which a phase adds to the merge. -/
def PhaseLog.documents (env : RunEnv) (phase : String) (log : PhaseLog) : List JUnitDoc :=
  stubDocuments env phase log.preResolved ++ log.document.toList ++
    stubDocuments env phase log.missing

def Visit.documents (env : RunEnv) : Visit → List JUnitDoc
  | notRequested _ => []
  | skipped _ _ => []
  | executed phase log => log.documents env phase

/-- The documents of the entries which no phase settled. -/
def leftoverDocuments (env : RunEnv) (stepPhases : String → Option String)
    (records : List ResolvedEntry) : List JUnitDoc :=
  (byPhase stepPhases records).entries.map fun group ↦
    writeTerminalJunitXml group.2 (suiteName env group.1)

/-! ## Fresh paths -/

/-- A phase with open entries writes to paths of its own; one without them finds at most the report
of an earlier execution. -/
structure FreshPaths (env : RunEnv) (phase : String) (s : LoopState) : Prop where
  report : phaseEntries env s phase ≠ [] → reportPath env phase "" ∉ listedFiles env s
  resolved : phaseEntries env s phase ≠ [] → reportPath env phase "-resolved" ∉ listedFiles env s
  deselected : phaseEntries env s phase ≠ [] →
    reportPath env phase "-deselected" ∉ listedFiles env s
  distinct : phaseEntries env s phase ≠ [] → [reportPath env phase "-resolved",
    reportPath env phase "", reportPath env phase "-deselected"].Nodup

/-- Whenever a phase is about to be executed its paths are fresh. -/
def WritesFreshly (env : RunEnv) (phase : String) (s : LoopState) : Prop :=
  env.plan.requests phase = true → gate env s phase = none → FreshPaths env phase s

/-- The phases of the entries which no phase settled. -/
def leftoverPhases (env : RunEnv) (s : LoopState) : List String :=
  (openEntries env s).map fun item ↦ getEntryPhase item.2 s.context.stepPhases.get?

/-- The paths of the last pass are fresh and distinct. -/
structure FreshLeftovers (env : RunEnv) (s : LoopState) : Prop where
  fresh : ∀ phase ∈ leftoverPhases env s,
    reportPath env phase "-unexecuted" ∉ listedFiles env s
  distinct : ∀ phase ∈ leftoverPhases env s, ∀ other ∈ leftoverPhases env s,
    reportPath env phase "-unexecuted" = reportPath env other "-unexecuted" → phase = other

instance (env : RunEnv) (phase : String) (s : LoopState) : Decidable (FreshPaths env phase s) :=
  decidable_of_iff (phaseEntries env s phase ≠ [] →
      reportPath env phase "" ∉ listedFiles env s ∧
      reportPath env phase "-resolved" ∉ listedFiles env s ∧
      reportPath env phase "-deselected" ∉ listedFiles env s ∧
      [reportPath env phase "-resolved", reportPath env phase "",
        reportPath env phase "-deselected"].Nodup)
    ⟨fun h ↦ ⟨fun hopen ↦ (h hopen).1, fun hopen ↦ (h hopen).2.1, fun hopen ↦ (h hopen).2.2.1,
      fun hopen ↦ (h hopen).2.2.2⟩,
      fun h hopen ↦ ⟨h.report hopen, h.resolved hopen, h.deselected hopen, h.distinct hopen⟩⟩

instance (env : RunEnv) (phase : String) : DecidablePred (WritesFreshly env phase) := fun _ ↦
  inferInstanceAs (Decidable (_ → _ → _))

instance (env : RunEnv) : DecidablePred (FreshLeftovers env) := fun s ↦
  decidable_of_iff ((∀ phase ∈ leftoverPhases env s,
        reportPath env phase "-unexecuted" ∉ listedFiles env s) ∧
      ∀ phase ∈ leftoverPhases env s, ∀ other ∈ leftoverPhases env s,
        reportPath env phase "-unexecuted" = reportPath env other "-unexecuted" → phase = other)
    ⟨fun h ↦ ⟨h.1, h.2⟩, fun h ↦ ⟨h.fresh, h.distinct⟩⟩

/-! ## Files and their contents -/

/-- The listed files hold the documents, and no other file exists. -/
structure Filing (env : RunEnv) (s : LoopState) (docs : List JUnitDoc) : Prop where
  contents : (listedFiles env s).map s.files.get? = docs.map some
  known : ∀ path ∈ s.files.keys, path ∈ listedFiles env s

/-- A listed file holds one of the documents. -/
theorem Filing.mem_docs (h : Filing env s docs) {path : String} {doc : JUnitDoc}
    (hlisted : path ∈ listedFiles env s) (hdoc : s.files.get? path = some doc) : doc ∈ docs := by
  have hmem : some doc ∈ docs.map some := by
    rw [← h.contents]
    exact List.mem_map.mpr ⟨path, hlisted, hdoc⟩
  simpa using hmem

theorem map_get?_insert {paths : List String} {files : OrderedMap String JUnitDoc} {path : String}
    {doc : JUnitDoc} (h : path ∉ paths) :
    paths.map (files.insert path doc).get? = paths.map files.get? := by
  apply List.map_congr_left
  intro other hother
  rw [OrderedMap.get?_insert, if_neg]
  rintro rfl
  exact h hother

theorem Filing.writeStub (h : Filing env s docs)
    (hfresh : reportPath env phase suffix ∉ listedFiles env s)
    (hwrite : writeStub env s phase suffix records = .ok s') :
    Filing env s' (docs ++ [writeTerminalJunitXml records (suiteName env phase)]) ∧
      listedFiles env s' = listedFiles env s ++ [reportPath env phase suffix] := by
  unfold Orchestrator.writeStub at hwrite
  cases hopen : env.world.reports.openWrite (junitName phase suffix) with
  | error raised => rw [hopen] at hwrite; cases hwrite
  | ok _ =>
    rw [hopen] at hwrite
    cases hwrite
    have hlisted : listedFiles env { s with
        files := s.files.insert (env.world.reports.locate (junitName phase suffix))
          (writeTerminalJunitXml records (suiteName env phase))
        junitFiles := s.junitFiles ++ [junitName phase suffix] } =
          listedFiles env s ++ [reportPath env phase suffix] := by
      simp [listedFiles, reportPath]
    refine ⟨⟨?_, ?_⟩, hlisted⟩
    · rw [hlisted, List.map_append, List.map_append, ← h.contents]
      congr 1
      · exact map_get?_insert hfresh
      · simp [reportPath]
    · intro path hpath
      rw [hlisted, List.mem_append, List.mem_singleton]
      rcases OrderedMap.mem_keys_insert.mp hpath with rfl | hold
      · exact Or.inr rfl
      · exact Or.inl (h.known path hold)

/-- The path of a stub, where one is written. -/
def stubPaths (env : RunEnv) (phase suffix : String) (records : List ResolvedEntry) : List String :=
  if records.isEmpty then [] else [reportPath env phase suffix]

theorem Filing.stubWhen {dir : String} (h : Filing env s docs) (suffix : String)
    (records : List ResolvedEntry) (hdir : env.tmpdir = some dir)
    (hfresh : records ≠ [] → reportPath env phase suffix ∉ listedFiles env s)
    (hwrite : stubWhen env s phase suffix records = .ok s') :
    Filing env s' (docs ++ stubDocuments env phase records) ∧
      listedFiles env s' = listedFiles env s ++ stubPaths env phase suffix records := by
  unfold Orchestrator.stubWhen at hwrite
  unfold stubDocuments stubPaths
  cases hempty : records.isEmpty with
  | true =>
    simp only [hempty, Bool.true_or, if_true] at hwrite
    cases hwrite
    simpa using h
  | false =>
    simp only [hempty, hdir, Option.isNone_some, Bool.or_self, Bool.false_eq_true, if_false] at hwrite
    simpa using h.writeStub (hfresh fun hnil ↦ by simp [hnil] at hempty) hwrite

/-- The files after a session. -/
theorem files_storeReport {dir : String} (hdir : env.tmpdir = some dir) (s : LoopState)
    (phase : String) (xml : Option JUnitDoc) :
    (storeReport env s phase xml).files =
      (xml.map fun doc ↦ s.files.insert (reportPath env phase "") doc).getD s.files := by
  unfold storeReport
  cases xml <;> simp [hdir, reportPath]

theorem listedFiles_report (env : RunEnv) (s : LoopState) (phase : String)
    (xml document : Option JUnitDoc) :
    listedFiles env (listReport (storeReport env s phase xml) phase document) =
      listedFiles env s ++ (document.map fun _ ↦ reportPath env phase "").toList := by
  obtain ⟨files, hstored⟩ := storeReport_frame env s phase xml
  rw [hstored]
  unfold listReport
  cases document <;> simp [listedFiles, reportPath]

theorem files_listReport (s : LoopState) (phase : String) (document : Option JUnitDoc) :
    (listReport s phase document).files = s.files := by
  unfold listReport
  split <;> rfl

theorem readReport_eq {dir name : String} {document : Option JUnitDoc}
    (hdir : env.tmpdir = some dir) (h : readReport env s name = .ok document) :
    document = s.files.get? (env.world.reports.locate name) := by
  unfold readReport at h
  simp only [hdir, Option.isNone_some, Bool.false_eq_true, if_false] at h
  cases hstat : env.world.reports.stat name with
  | error raised => rw [hstat] at h; cases h
  | ok _ =>
    rw [hstat] at h
    cases h
    rfl

/-- What is found at a phase's path after its session. Only a path which was not listed before is
written, so a file listed before keeps its content. -/
theorem Filing.report {dir : String} {xml document : Option JUnitDoc} (h : Filing env s docs)
    (hdir : env.tmpdir = some dir)
    (hfresh : xml.isSome → reportPath env phase "" ∉ listedFiles env s)
    (hread : readReport env (storeReport env s phase xml) (junitName phase "") = .ok document) :
    Filing env (listReport (storeReport env s phase xml) phase document)
        (docs ++ document.toList) ∧
      (reportPath env phase "" ∉ listedFiles env s → document = xml) ∧
      ∀ doc, document = some doc → xml = some doc ∨ doc ∈ docs := by
  have hdocument := readReport_eq hdir hread
  have hfiles := files_storeReport hdir s phase xml
  refine ⟨?_, ?_, ?_⟩
  · constructor
    · have hold : (listedFiles env s).map (storeReport env s phase xml).files.get? =
          docs.map some := by
        rw [← h.contents, hfiles]
        cases xml with
        | none => rfl
        | some doc => exact map_get?_insert (hfresh rfl)
      rw [listedFiles_report, files_listReport, List.map_append, List.map_append, hold]
      congr 1
      cases hfound : document with
      | none => rfl
      | some doc => simp [reportPath, ← hdocument, hfound]
    · intro path hpath
      rw [listedFiles_report, List.mem_append]
      rw [files_listReport, hfiles] at hpath
      cases xml with
      | none => exact Or.inl (h.known path hpath)
      | some doc =>
        rcases OrderedMap.mem_keys_insert.mp hpath with rfl | hold
        · right
          have hfound : document = some doc := by
            rw [hdocument, hfiles]
            simp [reportPath]
          simp [hfound]
        · exact Or.inl (h.known path hold)
  · intro hnew
    rw [hdocument, hfiles]
    cases xml with
    | none => exact OrderedMap.get?_eq_none_iff.mpr fun hmem ↦ hnew (h.known _ hmem)
    | some doc => simp [reportPath]
  · intro doc hdoc
    rw [hdoc, hfiles] at hdocument
    cases xml with
    | none =>
      right
      have hkey := OrderedMap.mem_keys_iff.mpr ⟨doc, hdocument.symm⟩
      exact h.mem_docs (h.known _ hkey) hdocument.symm
    | some written =>
      left
      simpa [reportPath] using hdocument.symm

/-! ## The files of a phase -/

theorem entriesMissingFromJunit_nil (document : Option JUnitDoc) :
    entriesMissingFromJunit [] document = [] := by
  unfold entriesMissingFromJunit
  split <;> rfl

/-- The paths which a phase adds to the list. -/
def PhaseLog.paths (env : RunEnv) (phase : String) (log : PhaseLog) : List String :=
  stubPaths env phase "-resolved" log.preResolved ++
    (log.document.map fun _ ↦ reportPath env phase "").toList ++
      stubPaths env phase "-deselected" log.missing

/-- A phase without open entries has nothing to write. -/
theorem PhaseRan.idle {exec : ExecState} {log : PhaseLog} (h : PhaseRan env s phase exec log s')
    (hnone : phaseEntries env s phase = []) :
    log.preResolved = [] ∧ log.executed = [] ∧ log.xml = none := by
  have hdecided : log.decided = [] := by
    have hrecords := decideEntries_forall₂ h.decided
    rw [hnone, List.map_nil] at hrecords
    exact List.forall₂_nil_left_iff.mp hrecords
  have hready : log.ready = [] := by simp [PhaseLog.ready, hdecided]
  refine ⟨by simp [PhaseLog.preResolved, hdecided], ?_⟩
  rcases h.session with ⟨hsession, hexecuted, _⟩ | ⟨request, _, _, _, _, hrequest, _⟩
  · exact ⟨hexecuted, by rw [PhaseLog.xml, hsession]⟩
  · simp [phaseRequest, hready] at hrequest

/-- How an executed phase changes the files. -/
structure PhaseFiled (env : RunEnv) (s : LoopState) (phase : String) (log : PhaseLog)
    (docs : List JUnitDoc) (s' : LoopState) : Prop where
  filing : Filing env s' (docs ++ log.documents env phase)
  listed : listedFiles env s' = listedFiles env s ++ log.paths env phase
  report : phaseEntries env s phase ≠ [] → log.document = log.xml
  idle : phaseEntries env s phase = [] → log.document = s.files.get? (reportPath env phase "")
  found : ∀ doc, log.document = some doc →
    log.xml = some doc ∨ doc ∈ docs ++ stubDocuments env phase log.preResolved

theorem PhaseRan.filed {exec : ExecState} {log : PhaseLog} {dir : String}
    (h : PhaseRan env s phase exec log s') (hs : Filing env s docs) (hdir : env.tmpdir = some dir)
    (hfresh : FreshPaths env phase s) : PhaseFiled env s phase log docs s' := by
  obtain ⟨before, stored, after, hbefore, ⟨sessions, rfl⟩, hread, hafter, hfiles, hjunit⟩ := h.files
  have hidle := h.idle
  -- the paths a phase writes are distinct, and none of them was listed before
  have hnew : ∀ {path : String} {paths : List String},
      path ∉ listedFiles env s → path ∉ paths → path ∉ listedFiles env s ++ paths := by
    intro path paths hlisted hpaths hmem
    exact (List.mem_append.mp hmem).elim hlisted hpaths
  have hstub : ∀ {path suffix : String} {records : List ResolvedEntry},
      path ≠ reportPath env phase suffix → path ∉ stubPaths env phase suffix records := by
    intro path suffix records hne hmem
    unfold stubPaths at hmem
    split at hmem
    · cases hmem
    · exact hne (List.mem_singleton.mp hmem)
  have hopen : ∀ {α : Type} {items : List α}, (phaseEntries env s phase = [] → items = []) →
      items ≠ [] → phaseEntries env s phase ≠ [] := fun hnil hsome hnone ↦ hsome (hnil hnone)
  have hstart : Filing env (afterSteps env s phase exec) docs := ⟨hs.contents, hs.known⟩
  obtain ⟨hfirst, hlisted⟩ := hstart.stubWhen _ _ hdir
    (fun hsome ↦ hfresh.resolved (hopen (fun hnone ↦ (hidle hnone).1) hsome)) hbefore
  have hlisted : listedFiles env before =
      listedFiles env s ++ stubPaths env phase "-resolved" log.preResolved := hlisted
  have hxml : log.xml.isSome → phaseEntries env s phase ≠ [] := by
    intro hsome hnone
    simp [(hidle hnone).2.2] at hsome
  have hreport : phaseEntries env s phase ≠ [] →
      reportPath env phase "" ∉ listedFiles env before := by
    intro hsome
    rw [hlisted]
    have hdistinct := hfresh.distinct hsome
    apply hnew (hfresh.report hsome) (hstub _)
    rintro heq
    simp [heq] at hdistinct
  have hsecond : Filing env { before with sessions }
      (docs ++ stubDocuments env phase log.preResolved) := ⟨hfirst.contents, hfirst.known⟩
  obtain ⟨hthird, hdocument, hfound⟩ := hsecond.report hdir (fun hsome ↦ hreport (hxml hsome)) hread
  have hlisted' : listedFiles env (listReport (storeReport env { before with sessions } phase
      log.xml) phase log.document) = listedFiles env s ++
        (stubPaths env phase "-resolved" log.preResolved ++
          (log.document.map fun _ ↦ reportPath env phase "").toList) := by
    rw [listedFiles_report, ← List.append_assoc, ← hlisted]
    rfl
  obtain ⟨hlast, hall⟩ := hthird.stubWhen "-deselected" log.missing hdir (by
    intro hsome
    have hentries := hopen (fun hnone ↦ by
      rw [PhaseLog.missing, (hidle hnone).2.1, entriesMissingFromJunit_nil]) hsome
    have hdistinct := hfresh.distinct hentries
    rw [hlisted']
    apply hnew (hfresh.deselected hentries)
    intro hmem
    rcases List.mem_append.mp hmem with hresolved | hfound
    · refine hstub ?_ hresolved
      rintro heq
      simp [heq] at hdistinct
    · cases hdoc : log.document with
      | none => simp [hdoc] at hfound
      | some doc =>
        simp only [hdoc, Option.map_some, Option.toList_some, List.mem_singleton] at hfound
        simp [hfound] at hdistinct) hafter
  have hsame : listedFiles env s' = listedFiles env after := by rw [listedFiles, hjunit, listedFiles]
  constructor
  · refine ⟨?_, ?_⟩
    · rw [PhaseLog.documents, ← List.append_assoc, ← List.append_assoc, ← hlast.contents, hsame,
        hfiles]
    · rw [hsame, hfiles]
      exact hlast.known
  · rw [hsame, hall, hlisted', List.append_assoc]
    rfl
  · exact fun hsome ↦ hdocument (hreport hsome)
  · intro hnone
    rw [(hidle hnone).1] at hbefore
    cases hbefore
    have hstored := readReport_eq hdir hread
    rwa [files_storeReport hdir, (hidle hnone).2.2] at hstored
  · exact hfound

/-! ## The files of a run -/

/-- The documents which the visits of a run add to the merge. -/
def visitDocuments (env : RunEnv) (visits : List Visit) : List JUnitDoc :=
  visits.flatMap (Visit.documents env)

theorem visitDocuments_concat (env : RunEnv) (visits : List Visit) (visit : Visit) :
    visitDocuments env (visits ++ [visit]) = visitDocuments env visits ++ visit.documents env := by
  simp [visitDocuments]

theorem Visited.filing {dir : String} (h : Visited env s phase s')
    (hs : Filing env s (visitDocuments env s.visits)) (hdir : env.tmpdir = some dir)
    (hfresh : WritesFreshly env phase s) : Filing env s' (visitDocuments env s'.visits) := by
  cases h with
  | notRequested _ hstate =>
    rw [hstate, visitDocuments_concat, Visit.documents, List.append_nil]
    exact ⟨hs.contents, hs.known⟩
  | skipped reason _ _ hstate =>
    rw [hstate, visitDocuments_concat, Visit.documents, List.append_nil]
    exact ⟨hs.contents, hs.known⟩
  | executed exec log hrequested hgate hran =>
    rw [hran.visits, visitDocuments_concat]
    exact (hran.filed hs hdir (hfresh hrequested hgate)).filing

/-- A document is a stub or the report of a session. -/
inductive Sourced (env : RunEnv) (doc : JUnitDoc) : Prop where
  | stub (phase : String) (records : List ResolvedEntry)
      (written : doc = writeTerminalJunitXml records (suiteName env phase))
  | session (index : ℕ) (request : SessionRequest) (exitCode : Int)
      (captured : List ValidationResult)
      (returned : env.world.session index request = .returned exitCode captured (some doc))

theorem sourced_stubDocuments {doc : JUnitDoc} (h : doc ∈ stubDocuments env phase records) :
    Sourced env doc := by
  unfold stubDocuments at h
  split at h
  · cases h
  · exact .stub phase records (List.mem_singleton.mp h)

theorem SessionFacts.sourced {log : PhaseLog} {doc : JUnitDoc} (h : SessionFacts env s phase log)
    (hxml : log.xml = some doc) : Sourced env doc := by
  rcases h with ⟨hsession, _, _⟩ | ⟨request, exitCode, captured, xml, hsession, _, _, houtcome, _⟩
  · simp [PhaseLog.xml, hsession] at hxml
  · rw [PhaseLog.xml, hsession] at hxml
    exact .session _ request exitCode captured (houtcome.trans (by rw [show xml = some doc from hxml]))

theorem PhaseRan.sourced {exec : ExecState} {log : PhaseLog} {dir : String}
    (h : PhaseRan env s phase exec log s') (hs : Filing env s docs) (hdir : env.tmpdir = some dir)
    (hfresh : FreshPaths env phase s) (hdocs : ∀ doc ∈ docs, Sourced env doc) :
    ∀ doc ∈ log.documents env phase, Sourced env doc := by
  intro doc hdoc
  rw [PhaseLog.documents, List.mem_append, List.mem_append, Option.mem_toList] at hdoc
  rcases hdoc with (hresolved | hreport) | hmissing
  · exact sourced_stubDocuments hresolved
  · rcases (h.filed hs hdir hfresh).found doc hreport with hxml | hold
    · exact h.session.sourced hxml
    · rcases List.mem_append.mp hold with hmem | hstub
      · exact hdocs doc hmem
      · exact sourced_stubDocuments hstub
  · exact sourced_stubDocuments hmissing

/-- The files after some phases, and where their contents come from. -/
structure Filed (env : RunEnv) (s : LoopState) : Prop where
  filing : Filing env s (visitDocuments env s.visits)
  sourced : ∀ doc ∈ visitDocuments env s.visits, Sourced env doc

theorem Visited.filed {dir : String} (h : Visited env s phase s') (hs : Filed env s)
    (hdir : env.tmpdir = some dir) (hfresh : WritesFreshly env phase s) : Filed env s' := by
  refine ⟨h.filing hs.filing hdir hfresh, ?_⟩
  cases h with
  | notRequested _ hstate =>
    rw [hstate, visitDocuments_concat, Visit.documents, List.append_nil]
    exact hs.sourced
  | skipped reason _ _ hstate =>
    rw [hstate, visitDocuments_concat, Visit.documents, List.append_nil]
    exact hs.sourced
  | executed exec log hrequested hgate hran =>
    rw [hran.visits, visitDocuments_concat]
    intro doc hdoc
    rcases List.mem_append.mp hdoc with hold | hnew
    · exact hs.sourced doc hold
    · exact hran.sourced hs.filing hdir (hfresh hrequested hgate) hs.sourced doc hnew

theorem filed_initial (env : RunEnv) (context : Context) : Filed env { context } :=
  ⟨⟨rfl, by simp⟩, by simp [visitDocuments]⟩

theorem filed_runPhases {dir : String} {context : Context} (hdir : env.tmpdir = some dir)
    (hfresh : Loop.Always (visitPhase env) (WritesFreshly env) env.plan.configPhases { context })
    (h : runPhases env context = .next s) : Filed env s :=
  runPhases_always (I := fun _ s ↦ Filed env s) hfresh (filed_initial env context)
    (fun _ _ _ _ hnew hdone hvisited ↦ hvisited.filed hdone hdir hnew) h

theorem Filing.writeUnexecuted {groups : List (String × List ResolvedEntry)}
    (h : Filing env s docs)
    (hfresh : ∀ group ∈ groups, reportPath env group.1 "-unexecuted" ∉ listedFiles env s)
    (hdistinct : (groups.map fun group ↦ reportPath env group.1 "-unexecuted").Nodup)
    (hwrite : writeUnexecuted env groups s = .ok s') :
    Filing env s' (docs ++ groups.map fun group ↦
        writeTerminalJunitXml group.2 (suiteName env group.1)) ∧
      listedFiles env s' = listedFiles env s ++
        groups.map fun group ↦ reportPath env group.1 "-unexecuted" := by
  induction groups generalizing s docs with
  | nil =>
    cases hwrite
    simpa using h
  | cons group rest ih =>
    rw [List.map_cons, List.nodup_cons] at hdistinct
    unfold Orchestrator.writeUnexecuted at hwrite
    rw [List.foldlM_cons] at hwrite
    cases hfirst : Orchestrator.writeStub env s group.1 "-unexecuted" group.2 with
    | error raised => rw [hfirst] at hwrite; cases hwrite
    | ok between =>
      rw [hfirst] at hwrite
      obtain ⟨hbetween, hlisted⟩ := h.writeStub (hfresh group (List.mem_cons_self ..)) hfirst
      obtain ⟨hrest, hall⟩ := ih hbetween (by
        intro other hother
        rw [hlisted, List.mem_append, List.mem_singleton, not_or]
        refine ⟨hfresh other (List.mem_cons_of_mem _ hother), fun heq ↦ hdistinct.1 ?_⟩
        rw [← heq]
        exact List.mem_map_of_mem hother) hdistinct.2 hwrite
      rw [List.append_assoc] at hrest
      rw [hlisted, List.append_assoc] at hall
      exact ⟨hrest, hall⟩

/-- The phases of the last pass are those of the open entries. -/
theorem mem_leftoverPhases {decided : List ResolvedEntry} {phase : String}
    (hdecided : decideEntries env s ((openEntries env s).map Prod.snd) = .ok decided)
    (hmem : phase ∈ (byPhase s.context.stepPhases.get?
      (decided.map (terminalizeLeftover env s.context.stepPhases.get?))).keys) :
    phase ∈ leftoverPhases env s := by
  obtain ⟨record, hrecord, rfl⟩ := mem_keys_byPhase.mp hmem
  obtain ⟨before, hbefore, rfl⟩ := List.mem_map.mp hrecord
  obtain ⟨entry, hentry, hdecides⟩ : ∃ entry ∈ (openEntries env s).map Prod.snd,
      before.Decides entry := by
    obtain ⟨i, hi, rfl⟩ := List.getElem_of_mem hbefore
    have hall := decideEntries_forall₂ hdecided
    exact ⟨_, List.getElem_mem (hall.length_eq ▸ hi), hall.get (hall.length_eq ▸ hi) hi⟩
  obtain ⟨item, hitem, rfl⟩ := List.mem_map.mp hentry
  refine List.mem_map.mpr ⟨item, hitem, ?_⟩
  have hsame : (terminalizeLeftover env s.context.stepPhases.get? before).entry = before.entry := by
    unfold terminalizeLeftover
    split <;> rfl
  rw [hsame, hdecides.entry]

theorem Remaining.phases {records : List ResolvedEntry} (h : Remaining env s records s')
    {phase : String} (hmem : phase ∈ (byPhase s.context.stepPhases.get? records).keys) :
    phase ∈ leftoverPhases env s := by
  obtain ⟨decided, hdecided, rfl⟩ := h.decided
  exact mem_leftoverPhases hdecided hmem

/-- The paths of the last pass, one for each phase of the records. -/
def leftoverPaths (env : RunEnv) (stepPhases : String → Option String)
    (records : List ResolvedEntry) : List String :=
  (byPhase stepPhases records).keys.map fun phase ↦ reportPath env phase "-unexecuted"

theorem Remaining.freshPaths {records : List ResolvedEntry} (h : Remaining env s records s')
    (hfresh : FreshLeftovers env s) :
    (leftoverPaths env s.context.stepPhases.get? records).Nodup ∧
      ∀ path ∈ leftoverPaths env s.context.stepPhases.get? records, path ∉ listedFiles env s := by
  constructor
  · apply List.Nodup.map_on _ (byPhase s.context.stepPhases.get? records).nodup_keys
    intro phase hphase other hother heq
    exact hfresh.distinct phase (h.phases hphase) other (h.phases hother) heq
  · intro path hpath
    obtain ⟨phase, hphase, rfl⟩ := List.mem_map.mp hpath
    exact hfresh.fresh phase (h.phases hphase)

theorem Remaining.filing {records : List ResolvedEntry} {dir : String}
    (h : Remaining env s records s') (hs : Filing env s docs) (hdir : env.tmpdir = some dir)
    (hfresh : FreshLeftovers env s) :
    Filing env s' (docs ++ leftoverDocuments env s.context.stepPhases.get? records) ∧
      listedFiles env s' =
        listedFiles env s ++ leftoverPaths env s.context.stepPhases.get? records := by
  rcases h.files with ⟨hnone, _⟩ | ⟨_, after, hwrite, hfiles, hjunit⟩
  · simp [hdir] at hnone
  · have hstart : Filing env { s with resolved := s'.resolved } docs := ⟨hs.contents, hs.known⟩
    obtain ⟨hdistinct, hnew⟩ := h.freshPaths hfresh
    have hpaths : leftoverPaths env s.context.stepPhases.get? records =
        (byPhase s.context.stepPhases.get? records).entries.map fun group ↦
          reportPath env group.1 "-unexecuted" := by
      rw [leftoverPaths, OrderedMap.keys, List.map_map]
      rfl
    rw [hpaths] at hdistinct hnew ⊢
    obtain ⟨hafter, hlisted⟩ := hstart.writeUnexecuted
      (fun group hgroup ↦ hnew _ (List.mem_map_of_mem hgroup)) hdistinct hwrite
    have hsame : listedFiles env s' = listedFiles env after := by
      rw [listedFiles, hjunit, listedFiles]
    refine ⟨⟨?_, ?_⟩, hsame.trans hlisted⟩
    · rw [leftoverDocuments, ← hafter.contents, hsame, hfiles]
    · rw [hsame, hfiles]
      exact hafter.known

/-- The merge reads the documents. -/
theorem Filing.merged {dir : String} {report : Option (List Suite)} (h : Filing env s docs)
    (hdir : env.tmpdir = some dir) (hmerge : mergeReports env s = .ok report) :
    (docs = [] ∧ report = none) ∨ ∃ suites, report = some suites ∧
      mergeJunitXmls env.world.reports.redact docs (env.plan.entries.map ValidationEntry.name) =
        .ok suites := by
  have hdocs : (s.junitFiles.filterMap fun name ↦
      s.files.get? (env.world.reports.locate name)) = docs := by
    have hcontents := congrArg (List.filterMap id) h.contents
    simpa [listedFiles, List.filterMap_map, Function.comp_def] using hcontents
  unfold mergeReports at hmerge
  cases hempty : s.junitFiles.isEmpty with
  | true =>
    simp only [hempty, Bool.or_true, if_true] at hmerge
    cases hmerge
    rw [List.isEmpty_iff] at hempty
    exact Or.inl ⟨by rw [← hdocs, hempty]; rfl, rfl⟩
  | false =>
    simp only [hempty, hdir, Option.isNone_some, Bool.or_self, Bool.false_eq_true, if_false,
      hdocs] at hmerge
    cases hsuites : mergeJunitXmls env.world.reports.redact docs
        (env.plan.entries.map ValidationEntry.name) with
    | error raised => rw [hsuites] at hmerge; cases hmerge
    | ok suites =>
      rw [hsuites] at hmerge
      cases hwrite : env.world.reports.writeReport with
      | error raised => rw [hwrite] at hmerge; cases hmerge
      | ok _ =>
        rw [hwrite] at hmerge
        cases hmerge
        exact Or.inr ⟨suites, rfl, rfl⟩

/-- The run writes every file to a path of its own. -/
structure FreshRun (env : RunEnv) (context : Context) : Prop where
  phases : Loop.Always (visitPhase env) (WritesFreshly env) env.plan.configPhases { context }
  leftovers : ∀ s, runPhases env context = .next s → FreshLeftovers env s

instance (env : RunEnv) (context : Context) : Decidable (FreshRun env context) :=
  have : Decidable (∀ s, runPhases env context = .next s → FreshLeftovers env s) :=
    match runPhases env context with
    | .next s => decidable_of_iff (FreshLeftovers env s)
      ⟨fun h _ heq ↦ Loop.Signal.next.inj heq ▸ h, fun h ↦ h s rfl⟩
    | .halt _ | .raise _ _ => isTrue fun _ heq ↦ by cases heq
  decidable_of_iff (Loop.Always (visitPhase env) (WritesFreshly env) env.plan.configPhases
      { context } ∧ ∀ s, runPhases env context = .next s → FreshLeftovers env s)
    ⟨fun h ↦ ⟨h.1, h.2⟩, fun h ↦ ⟨h.phases, h.leftovers⟩⟩

/-! ## The files of a finished run -/

/-- The pass after the loop, also where no entry is left. -/
structure LastPass (env : RunEnv) (s : LoopState) (leftovers : List ResolvedEntry)
    (s' : LoopState) : Prop where
  records : List.Forall₂ (fun entry record ↦ record.entry = entry ∧
    (record.state = some .skipped ∨ record.state = some .error))
    ((openEntries env s).map Prod.snd) leftovers
  resolved : s'.resolved = settle s.resolved (((openEntries env s).map Prod.fst).zip leftovers)
  visits : s'.visits = s.visits
  context : s'.context = s.context

theorem unexecuted_terminalizeLeftover {stepPhases : String → Option String} {entry : ValidationEntry}
    {record : ResolvedEntry} (h : record.Decides entry) :
    (terminalizeLeftover env stepPhases record).entry = entry ∧
      ((terminalizeLeftover env stepPhases record).state = some .skipped ∨
        (terminalizeLeftover env stepPhases record).state = some .error) := by
  unfold terminalizeLeftover
  cases hready : record.isReady with
  | true => exact ⟨h.entry, Or.inl rfl⟩
  | false => exact ⟨h.entry, h.unexecuted hready⟩

theorem Remaining.lastPass {records : List ResolvedEntry} (h : Remaining env s records s') :
    LastPass env s records s' := by
  constructor
  · obtain ⟨decided, hdecided, rfl⟩ := h.decided
    rw [List.forall₂_map_right_iff]
    exact (decideEntries_forall₂ hdecided).imp fun _ _ ↦ unexecuted_terminalizeLeftover
  · rw [h.state]
  · rw [h.state]
  · rw [h.state]

/-- The files after the last pass. -/
structure RunFiled (env : RunEnv) (s : LoopState) (leftovers : List ResolvedEntry)
    (s' : LoopState) : Prop where
  filed : Filed env s
  lastPass : LastPass env s leftovers s'
  filing : Filing env s' (visitDocuments env s'.visits ++
    leftoverDocuments env s.context.stepPhases.get? leftovers)
  listed : listedFiles env s' =
    listedFiles env s ++ leftoverPaths env s.context.stepPhases.get? leftovers
  distinct : (leftoverPaths env s.context.stepPhases.get? leftovers).Nodup
  fresh : ∀ path ∈ leftoverPaths env s.context.stepPhases.get? leftovers,
    path ∉ listedFiles env s

theorem Filed.finish {dir : String} (h : Filed env s) (hdir : env.tmpdir = some dir)
    (hfresh : FreshLeftovers env s) (hlast : resolveRemaining env s = .ok s') :
    ∃ leftovers, RunFiled env s leftovers s' := by
  rcases resolveRemaining_ok hlast with ⟨hnone, rfl⟩ | ⟨_, records, hremaining⟩
  · refine ⟨[], h, ⟨by simp [hnone], by simp [settle], rfl, rfl⟩, ?_, ?_, ?_, ?_⟩
    · simpa [leftoverDocuments, byPhase, OrderedMap.empty] using h.filing
    · simp [leftoverPaths, byPhase]
    · simp [leftoverPaths, byPhase]
    · simp [leftoverPaths, byPhase]
  · obtain ⟨hfiling, hlisted⟩ := hremaining.filing h.filing hdir hfresh
    obtain ⟨hdistinct, hnew⟩ := hremaining.freshPaths hfresh
    refine ⟨records, h, hremaining.lastPass, ?_, hlisted, hdistinct, hnew⟩
    rw [hremaining.lastPass.visits]
    exact hfiling

/-- Every document of a finished run is a stub or the report of a session. -/
theorem RunFiled.sourced {leftovers : List ResolvedEntry} (h : RunFiled env s leftovers s') :
    ∀ doc ∈ visitDocuments env s'.visits ++
      leftoverDocuments env s.context.stepPhases.get? leftovers, Sourced env doc := by
  intro doc hdoc
  rcases List.mem_append.mp hdoc with hvisit | hleft
  · rw [h.lastPass.visits] at hvisit
    exact h.filed.sourced doc hvisit
  · obtain ⟨group, _, rfl⟩ := List.mem_map.mp hleft
    exact .stub group.1 group.2 rfl

/-- Files listed before keep their content where the list is extended. -/
theorem Filing.keeps {added : List JUnitDoc} {paths : List String} (h : Filing env s docs)
    (hafter : Filing env s' (docs ++ added)) (hlisted : listedFiles env s' = listedFiles env s ++ paths)
    {path : String} (hpath : path ∈ listedFiles env s) :
    s'.files.get? path = s.files.get? path := by
  have hcontents := hafter.contents
  rw [hlisted, List.map_append, List.map_append] at hcontents
  have hlength : ((listedFiles env s).map s'.files.get?).length = (docs.map some).length := by
    rw [← h.contents, List.length_map, List.length_map]
  have hsame := (List.append_inj hcontents hlength).1
  rw [← h.contents] at hsame
  exact List.map_inj_left.mp hsame path hpath

end IsvValidation.Orchestrator
