import IsvValidation.Orchestrator.Merged
import IsvValidation.Orchestrator.NoSilentGreen

/-!
# What the report says about the entries

An entry reaches the report through one of four writers: the stub for records which were terminal
before the session, the session's own report, the stub for executed records which that report does
not list, and the stub for entries which no phase settled. A stub has no element for a failure, so
the third writer turns a failed record into a passing test case. Everything else is told truly,
where every stub can be read and the files of the run are distinct.
-/

namespace IsvValidation.Orchestrator

open Config Host Junit Library Pytest Resolution

variable {env : RunEnv} {s s' : LoopState} {phase : String} {docs : List JUnitDoc}

/-! ## What the report has to say -/

/-- The statuses under which a state may be read back: a failure and an error are not told apart. -/
def Tells : Option State → Status → Prop
  | some .passed, status => status = .passed
  | some .skipped, status => status = .skipped
  | some .failed, status => status = .failed ∨ status = .error
  | some .error, status => status = .failed ∨ status = .error
  | none, _ => False

/-- The entries which no phase settled, with their positions. -/
def Finished.unexecuted (f : Finished) : List (ℕ × ResolvedEntry) :=
  f.state.resolved.entries.filter fun item ↦
    ∀ log ∈ f.state.visits.filterMap Visit.log?, item.1 ∉ log.indexes

/-- The test case was written for the record, by one of the four writers. -/
inductive WrittenFor (f : Finished) (record : ResolvedEntry) (case : TestCase) : Prop where
  | resolved (phase : String) (log : PhaseLog) (visited : .executed phase log ∈ f.state.visits)
      (terminal : record ∈ log.preResolved) (stub : stubCase? record = some case)
  | session (phase : String) (log : PhaseLog) (visited : .executed phase log ∈ f.state.visits)
      (executed : record ∈ log.executed) (doc : JUnitDoc) (found : log.document = some doc)
      (listed : case ∈ doc.cases) (named : case.name.map Subtype.val = some record.entry.name)
  | missing (phase : String) (log : PhaseLog) (visited : .executed phase log ∈ f.state.visits)
      (missing : record ∈ log.missing) (stub : stubCase? record = some case)
  | unexecuted (index : ℕ) (left : (index, record) ∈ f.unexecuted)
      (stub : stubCase? record = some case)

/-- A test case of a session's report under a name which no executed entry has. -/
def ForNoEntry (f : Finished) (case : TestCase) : Prop :=
  ∃ phase log doc, .executed phase log ∈ f.state.visits ∧ log.document = some doc ∧
    case ∈ doc.cases ∧ ∀ record ∈ log.executed, case.name.map Subtype.val ≠ some record.entry.name

/-- The result read back for a test case which is in the report. -/
def Finished.resultOf (f : Finished) (case : TestCase) : TestResult :=
  parseCase (redactCase f.env.world.reports.redact case)

/-- Every record of the run has a test case, every test case written for a record is read back with
the record's name and under a status which tells its state, and the report holds nothing else but
what sessions report under names of their own. -/
structure FaithfulReport (f : Finished) (parsed : JUnitReport) : Prop where
  complete : ∀ record ∈ f.result.validations, ∃ case, WrittenFor f record case
  truthful : ∀ record case, WrittenFor f record case →
    f.resultOf case ∈ parsed.results ∧ (f.resultOf case).name = record.entry.name ∧
      Tells record.state (f.resultOf case).status
  accounted : ∀ result ∈ parsed.results, ∃ case, f.resultOf case = result ∧
    ((∃ record, WrittenFor f record case) ∨ ForNoEntry f case)

/-! ## What it rests on -/

/-- A session's report, where it can be read, counts and lists its test cases, and a name of the
request is listed only under the true status of its result. -/
structure TrueReport (request : SessionRequest) (captured : List ValidationResult)
    (doc : JUnitDoc) : Prop where
  consistent : ∀ suite ∈ doc.contributed, suite.Consistent
  listed : ∀ name ∈ doc.caseNames, ∃ case ∈ doc.cases, case.name = some name
  statuses : ∀ name ∈ request.validations.map Prod.fst, ∀ case ∈ doc.cases,
    case.name.map Subtype.val = some name →
      ∃ result, (resultsByName captured).get? name = some result ∧
        ∀ record, Tells (resultToResolvedEntry record result).state case.status

/-- Every session reports truly; a session need not report at all. -/
def ReportsTruly (session : ℕ → SessionRequest → SessionOutcome) : Prop :=
  ∀ index request exitCode captured doc,
    session index request = .returned exitCode captured (some doc) → TrueReport request captured doc

theorem ReportsTruly.countsOwnCases {session : ℕ → SessionRequest → SessionOutcome}
    (h : ReportsTruly session) : CountsOwnCases session :=
  fun index request exitCode captured doc houtcome ↦
    (h index request exitCode captured doc houtcome).consistent

/-- XML allows every character of the record's stub. -/
def ReadableStub (env : RunEnv) (phase : String) (record : ResolvedEntry) : Prop :=
  (xmlText? (suiteName env phase)).isSome ∧ (stubCase? record).isSome

/-- The stubs of a phase can be read, and no failed record is missing from the session's report. -/
structure Tellable (env : RunEnv) (phase : String) (log : PhaseLog) : Prop where
  resolved : ∀ record ∈ log.preResolved, ReadableStub env phase record
  missing : ∀ record ∈ log.missing, ReadableStub env phase record
  failures : ∀ record ∈ log.missing, record.state ≠ some .failed

/-- All phases of a run can be told truly, and the entries which no phase settled have readable
stubs. -/
structure TellableRun (f : Finished) : Prop where
  phases : ∀ phase log, .executed phase log ∈ f.state.visits → Tellable f.env phase log
  unexecuted : ∀ item ∈ f.unexecuted, ReadableStub f.env
    (getEntryPhase item.2.entry f.state.context.stepPhases.get?) item.2

/-! ## The records of a phase -/

/-- What the log of a phase says about its records. -/
structure TrueLog (log : PhaseLog) : Prop where
  records : ∀ record ∈ log.records, record ∈ log.preResolved ∨ record ∈ log.executed
  resolved : ∀ record ∈ log.preResolved, record.state = some .skipped ∨ record.state = some .error
  executed : ∀ record ∈ log.executed, record.state.isSome
  statuses : ∀ record ∈ log.executed, ∀ doc, log.document = some doc → ∀ case ∈ doc.cases,
    case.name.map Subtype.val = some record.entry.name → Tells record.state case.status

theorem mem_weave {decided executed records : List ResolvedEntry}
    (h : weave decided executed = .ok records) {record : ResolvedEntry} (hmem : record ∈ records) :
    record ∈ decided.filter (fun record ↦ !record.isReady) ∨ record ∈ executed := by
  induction decided generalizing executed records with
  | nil =>
    cases h
    cases hmem
  | cons first rest ih =>
    unfold weave at h
    cases hready : first.isReady with
    | true =>
      simp only [hready, if_true] at h
      cases executed with
      | nil => cases h
      | cons next others =>
        cases hrest : weave rest others with
        | error raised => simp [hrest, Except.map] at h
        | ok found =>
          simp only [hrest, Except.map, Except.ok.injEq] at h
          subst h
          rcases List.mem_cons.mp hmem with rfl | hfound
          · exact Or.inr (List.mem_cons_self ..)
          · simp only [List.filter_cons, hready, Bool.not_true, Bool.false_eq_true, if_false]
            exact (ih hrest hfound).imp_right (List.mem_cons_of_mem next)
    | false =>
      simp only [hready, Bool.false_eq_true, if_false] at h
      cases hrest : weave rest executed with
      | error raised => simp [hrest, Except.map] at h
      | ok found =>
        simp only [hrest, Except.map, Except.ok.injEq] at h
        subst h
        simp only [List.filter_cons, hready, Bool.not_false, if_true]
        rcases List.mem_cons.mp hmem with rfl | hfound
        · exact Or.inl (List.mem_cons_self ..)
        · exact (ih hrest hfound).imp_left (List.mem_cons_of_mem first)

theorem unexecuted_of_decides {entries : List ValidationEntry} {decided : List ResolvedEntry}
    (h : List.Forall₂ (fun entry record ↦ record.Decides entry) entries decided) :
    ∀ record ∈ decided.filter (fun record ↦ !record.isReady),
      record.state = some .skipped ∨ record.state = some .error := by
  intro record hrecord
  obtain ⟨hmem, hready⟩ := List.mem_filter.mp hrecord
  obtain ⟨i, hi, rfl⟩ := List.getElem_of_mem hmem
  have hdecides := h.get (h.length_eq ▸ hi) hi
  exact hdecides.unexecuted (by simpa using hready)

/-- An executed record keeps its name, and its state is that of the result under the name. -/
theorem mem_applyPytestResults {named : List ResolvedEntry} {captured : List ValidationResult}
    {record : ResolvedEntry} (h : record ∈ applyPytestResults named captured) :
    record.state.isSome ∧ record.entry.name ∈ (pytestValidations named).map Prod.fst ∧
      ∀ result, (resultsByName captured).get? record.entry.name = some result →
        ∃ before, record = resultToResolvedEntry before result := by
  obtain ⟨before, hbefore, rfl⟩ := List.mem_map.mp h
  have hname : before.entry.name ∈ (pytestValidations named).map Prod.fst := by
    rw [pytestValidations, List.map_map]
    exact List.mem_map_of_mem hbefore
  cases hget : (resultsByName captured).get? before.entry.name with
  | none =>
    refine ⟨rfl, hname, ?_⟩
    intro result hresult
    simp [deselected, hget] at hresult
  | some found =>
    simp only [entry_resultToResolvedEntry]
    refine ⟨(isTerminal_resultToResolvedEntry before found).state, hname, ?_⟩
    intro result hresult
    rw [hget, Option.some.injEq] at hresult
    exact ⟨before, by rw [hresult]⟩

theorem PhaseRan.trueLog {exec : ExecState} {log : PhaseLog} {dir : String}
    (h : PhaseRan env s phase exec log s') (hs : Filing env s docs) (hdir : env.tmpdir = some dir)
    (hfresh : FreshPaths env phase s) (hsession : ReportsTruly env.world.session) : TrueLog log := by
  have hexecuted : ∀ record ∈ log.executed, record.state.isSome ∧
      ∀ doc, log.document = some doc → ∀ case ∈ doc.cases,
        case.name.map Subtype.val = some record.entry.name → Tells record.state case.status := by
    intro record hrecord
    rcases h.session with ⟨_, hnone, _⟩ |
      ⟨request, exitCode, captured, xml, hsome, hrequest, _, houtcome, hresults⟩
    · rw [hnone] at hrecord
      cases hrecord
    · have hopen : phaseEntries env s phase ≠ [] := by
        intro hnone
        rw [(h.idle hnone).2.1] at hrecord
        cases hrecord
      have hdocument : log.document = xml := by
        rw [(h.filed hs hdir hfresh).report hopen, PhaseLog.xml, hsome]
      rw [hresults] at hrecord
      obtain ⟨hstate, hname, hresult⟩ := mem_applyPytestResults hrecord
      refine ⟨hstate, ?_⟩
      intro doc hdoc case hcase hnamed
      rw [hdocument] at hdoc
      rw [hdoc] at houtcome
      have htrue := hsession _ request exitCode captured doc houtcome
      rw [← (phaseRequest_eq hrequest).1] at hname
      obtain ⟨result, hget, htells⟩ := htrue.statuses _ hname case hcase hnamed
      obtain ⟨before, hbefore⟩ := hresult result hget
      rw [hbefore]
      exact htells before
  exact ⟨fun record hrecord ↦ mem_weave h.woven hrecord,
    unexecuted_of_decides (decideEntries_forall₂ h.decided),
    fun record hrecord ↦ (hexecuted record hrecord).1,
    fun record hrecord ↦ (hexecuted record hrecord).2⟩

/-! ## The records of a run -/

/-- The map of settled entries holds what the visited phases recorded. -/
structure Recorded (visits : List Visit) (resolved : OrderedMap ℕ ResolvedEntry) : Prop where
  logged : ∀ i record, resolved.get? i = some record →
    ∃ phase log, .executed phase log ∈ visits ∧ i ∈ log.indexes ∧ record ∈ log.records
  keys : ∀ log ∈ visits.filterMap Visit.log?, ∀ i ∈ log.indexes, i ∈ resolved.keys

/-- The invariant of the loop. -/
structure Telling (env : RunEnv) (s : LoopState) : Prop where
  filed : Filed env s
  logs : ∀ phase log, .executed phase log ∈ s.visits → TrueLog log
  recorded : Recorded s.visits s.resolved

theorem PhaseRan.recorded {exec : ExecState} {log : PhaseLog} (h : PhaseRan env s phase exec log s')
    (hs : Recorded s.visits s.resolved) : Recorded s'.visits s'.resolved := by
  have hlength := forall₂_map_snd h.records
  rw [h.visits, h.resolved, h.indexes]
  constructor
  · intro i record hget
    by_cases hmem : i ∈ (phaseEntries env s phase).map Prod.fst
    · have hfst : ((((phaseEntries env s phase).map Prod.fst).zip log.records).map Prod.fst) =
          (phaseEntries env s phase).map Prod.fst := List.map_fst_zip (by simp [hlength])
      obtain ⟨pair, hpair, rfl⟩ := List.mem_map.mp (hfst ▸ hmem)
      have hsettled := get?_settle (phaseEntries_sublist env s phase) hpair
      rw [hget, Option.some.injEq] at hsettled
      refine ⟨phase, log, by simp, ?_, ?_⟩
      · rw [h.indexes]
        exact hmem
      · rw [hsettled]
        exact (List.of_mem_zip hpair).2
    · have hkept : i ∈ s.resolved.keys := by
        have hkey := OrderedMap.mem_keys_iff.mpr ⟨record, hget⟩
        exact ((mem_keys_settle hlength).mp hkey).resolve_right hmem
      rw [get?_settle_of_mem (phaseEntries_sublist env s phase) hkept] at hget
      obtain ⟨other, found, hvisited, hfound⟩ := hs.logged i record hget
      exact ⟨other, found, List.mem_append_left _ hvisited, hfound⟩
  · intro found hfound i hi
    rw [mem_keys_settle hlength]
    rw [List.filterMap_append, List.mem_append] at hfound
    rcases hfound with hold | hnew
    · exact Or.inl (hs.keys found hold i hi)
    · obtain rfl : found = log := by simpa [Visit.log?] using hnew
      right
      rwa [h.indexes] at hi

theorem Visited.telling {dir : String} (h : Visited env s phase s') (hs : Telling env s)
    (hdir : env.tmpdir = some dir) (hfresh : WritesFreshly env phase s)
    (hsession : ReportsTruly env.world.session) : Telling env s' := by
  refine ⟨h.filed hs.filed hdir hfresh, ?_, ?_⟩
  · intro other log hlog
    cases h with
    | notRequested _ hstate =>
      rw [hstate] at hlog
      exact hs.logs other log (by simpa using hlog)
    | skipped reason _ _ hstate =>
      rw [hstate] at hlog
      exact hs.logs other log (by simpa using hlog)
    | executed exec found hrequested hgate hran =>
      rw [hran.visits] at hlog
      rcases List.mem_append.mp hlog with hold | hnew
      · exact hs.logs other log hold
      · rw [List.mem_singleton, Visit.executed.injEq] at hnew
        rw [hnew.2]
        exact hran.trueLog hs.filed.filing hdir (hfresh hrequested hgate) hsession
  · cases h with
    | notRequested _ hstate =>
      rw [hstate]
      exact ⟨fun i record hget ↦ by simpa using hs.recorded.logged i record hget,
        by simpa [Visit.log?] using hs.recorded.keys⟩
    | skipped reason _ _ hstate =>
      rw [hstate]
      exact ⟨fun i record hget ↦ by simpa using hs.recorded.logged i record hget,
        by simpa [Visit.log?] using hs.recorded.keys⟩
    | executed exec found hrequested hgate hran => exact hran.recorded hs.recorded

theorem telling_runPhases {dir : String} {context : Context} (hdir : env.tmpdir = some dir)
    (hfresh : Loop.Always (visitPhase env) (WritesFreshly env) env.plan.configPhases { context })
    (hsession : ReportsTruly env.world.session) (h : runPhases env context = .next s) :
    Telling env s := by
  refine runPhases_always (I := fun _ s ↦ Telling env s) hfresh ?_ ?_ h
  · exact ⟨filed_initial env context, by simp, ⟨by simp, by simp⟩⟩
  · intro done phase s s' hnew hdone hvisited
    exact hvisited.telling hdone hdir hnew hsession

/-- What the last pass settles is what no phase settled. -/
theorem RunFiled.mem_unexecuted {leftovers : List ResolvedEntry} {f : Finished}
    (h : RunFiled env s leftovers f.state) (hrecorded : Recorded s.visits s.resolved) {i : ℕ}
    {record : ResolvedEntry} : (i, record) ∈ f.unexecuted ↔
      (i, record) ∈ ((openEntries env s).map Prod.fst).zip leftovers := by
  have hlength : (openEntries env s).length = leftovers.length := by
    simpa using h.lastPass.records.length_eq
  have hfst : ((((openEntries env s).map Prod.fst).zip leftovers).map Prod.fst) =
      (openEntries env s).map Prod.fst := List.map_fst_zip (by simp [hlength])
  unfold Finished.unexecuted
  rw [List.mem_filter, decide_eq_true_eq, h.lastPass.visits, OrderedMap.mem_entries_iff,
    h.lastPass.resolved]
  constructor
  · rintro ⟨hget, hnew⟩
    have hopen : i ∉ s.resolved.keys := by
      intro hkey
      obtain ⟨found, hfound⟩ := OrderedMap.mem_keys_iff.mp hkey
      obtain ⟨name, log, hvisited, hi, _⟩ := hrecorded.logged i found hfound
      exact hnew log (List.mem_filterMap.mpr ⟨_, hvisited, rfl⟩) hi
    have hkey := (mem_keys_settle hlength).mp (OrderedMap.mem_keys_iff.mpr ⟨record, hget⟩)
    obtain ⟨pair, hpair, rfl⟩ := List.mem_map.mp (hfst ▸ hkey.resolve_left hopen)
    have hsettled := get?_settle (List.Sublist.refl _) hpair
    rw [hget, Option.some.injEq] at hsettled
    rwa [hsettled]
  · intro hpair
    refine ⟨get?_settle (List.Sublist.refl _) hpair, fun log hlog hi ↦ ?_⟩
    obtain ⟨entry, hentry, hfirst⟩ := List.mem_map.mp (List.of_mem_zip hpair).1
    have hnew := (mem_openEntries.mp (show (entry.1, entry.2) ∈ openEntries env s from hentry)).2
    exact hnew (hfirst ▸ hrecorded.keys log hlog i hi)

/-! ## Every writer tells the truth -/

theorem tells_stubCase {record : ResolvedEntry} {case : TestCase} (h : stubCase? record = some case)
    (hstate : record.state.isSome) (hfailed : record.state ≠ some .failed) :
    Tells record.state case.status := by
  rw [status_stubCase h, stubStatus]
  cases hfound : record.state with
  | none => simp [hfound] at hstate
  | some state =>
    cases state with
    | passed => rfl
    | failed => exact absurd hfound hfailed
    | skipped => rfl
    | error => exact Or.inr rfl

theorem WrittenFor.name_eq {f : Finished} {record : ResolvedEntry} {case : TestCase}
    (h : WrittenFor f record case) : case.name.map Subtype.val = some record.entry.name := by
  cases h with
  | resolved phase log visited terminal stub => exact (stubCase?_eq_some stub).1
  | session phase log visited executed doc found listed named => exact named
  | missing phase log visited missing stub => exact (stubCase?_eq_some stub).1
  | unexecuted index left stub => exact (stubCase?_eq_some stub).1

theorem mem_of_mem_missing {log : PhaseLog} {record : ResolvedEntry} (h : record ∈ log.missing) :
    record ∈ log.executed := by
  unfold PhaseLog.missing entriesMissingFromJunit at h
  split at h
  · exact h
  · exact h
  · exact (List.mem_filter.mp h).1

/-- An executed record which is not missing is listed under its name in the session's report. -/
theorem listed_or_missing {log : PhaseLog} {record : ResolvedEntry} (h : record ∈ log.executed) :
    record ∈ log.missing ∨ ∃ doc, log.document = some doc ∧
      ∃ name ∈ doc.caseNames, name.val = record.entry.name := by
  unfold PhaseLog.missing entriesMissingFromJunit
  cases hdoc : log.document with
  | none => exact Or.inl h
  | some doc =>
    by_cases hlisted : ∃ name ∈ doc.caseNames, name.val = record.entry.name ∧ name.val ≠ ""
    · obtain ⟨name, hname, hval, _⟩ := hlisted
      exact Or.inr ⟨doc, rfl, name, hname, hval⟩
    · left
      cases doc with
      | unparsable => exact h
      | _ =>
        apply List.mem_filter.mpr
        refine ⟨h, ?_⟩
        simp only [Bool.not_eq_true', List.contains_eq_mem, decide_eq_false_iff_not, List.mem_filter,
          List.mem_map, not_and, bne_iff_ne]
        rintro ⟨name, hname, hval⟩ hne
        exact hlisted ⟨name, hname, hval, hval ▸ hne⟩

theorem exists_stubDocument {records : List ResolvedEntry}
    (hreadable : ∀ record ∈ records, ReadableStub env phase record) {record : ResolvedEntry}
    {case : TestCase} (hrecord : record ∈ records) (hcase : stubCase? record = some case) :
    ∃ doc ∈ stubDocuments env phase records, case ∈ doc.cases := by
  have hsome : records.isEmpty = false := by
    cases records with
    | nil => cases hrecord
    | cons first rest => rfl
  refine ⟨_, by simp only [stubDocuments, hsome]; exact List.mem_singleton_self _, ?_⟩
  exact stubCase_mem_cases (hreadable record hrecord).1 (fun other hother ↦ (hreadable other hother).2)
    hrecord hcase

theorem exists_leftoverDocument {stepPhases : String → Option String}
    {leftovers : List ResolvedEntry} (hreadable : ∀ record ∈ leftovers,
      ReadableStub env (getEntryPhase record.entry stepPhases) record)
    {record : ResolvedEntry} {case : TestCase} (hrecord : record ∈ leftovers)
    (hcase : stubCase? record = some case) :
    ∃ doc ∈ leftoverDocuments env stepPhases leftovers, case ∈ doc.cases := by
  have hkey : getEntryPhase record.entry stepPhases ∈ (byPhase stepPhases leftovers).keys :=
    mem_keys_byPhase.mpr ⟨record, hrecord, rfl⟩
  obtain ⟨group, hgroup, hphase⟩ := List.mem_map.mp hkey
  have hmembers := mem_byPhase hgroup
  have hinside : ∀ other ∈ group.2, ReadableStub env group.1 other := by
    intro other hother
    rw [hmembers, List.mem_filter] at hother
    have hother' := hreadable other hother.1
    rwa [of_decide_eq_true hother.2] at hother'
  have hmem : record ∈ group.2 := by
    rw [hmembers, List.mem_filter]
    exact ⟨hrecord, by simp [hphase]⟩
  refine ⟨_, List.mem_map_of_mem hgroup, ?_⟩
  exact stubCase_mem_cases (hinside record hmem).1 (fun other hother ↦ (hinside other hother).2) hmem
    hcase

/-- The test case of a record is in one of the documents. -/
theorem WrittenFor.exists_document {f : Finished} {leftovers : List ResolvedEntry}
    {record : ResolvedEntry} {case : TestCase} (h : WrittenFor f record case)
    (hfiled : RunFiled f.env s leftovers f.state) (htold : Telling f.env s) (htell : TellableRun f) :
    ∃ doc ∈ visitDocuments f.env f.state.visits ++
      leftoverDocuments f.env s.context.stepPhases.get? leftovers, case ∈ doc.cases := by
  have hvisit : ∀ phase log doc, .executed phase log ∈ f.state.visits →
      doc ∈ log.documents f.env phase → doc ∈ visitDocuments f.env f.state.visits ++
        leftoverDocuments f.env s.context.stepPhases.get? leftovers :=
    fun phase log doc hvisited hdoc ↦
      List.mem_append_left _ (List.mem_flatMap.mpr ⟨_, hvisited, hdoc⟩)
  cases h with
  | resolved phase log visited terminal stub =>
    obtain ⟨doc, hdoc, hcase⟩ :=
      exists_stubDocument (htell.phases phase log visited).resolved terminal stub
    exact ⟨doc, hvisit phase log doc visited (by simp [PhaseLog.documents, hdoc]), hcase⟩
  | session phase log visited executed doc found listed named =>
    exact ⟨doc, hvisit phase log doc visited (by simp [PhaseLog.documents, found]), listed⟩
  | missing phase log visited missing stub =>
    obtain ⟨doc, hdoc, hcase⟩ :=
      exists_stubDocument (htell.phases phase log visited).missing missing stub
    exact ⟨doc, hvisit phase log doc visited (by simp [PhaseLog.documents, hdoc]), hcase⟩
  | unexecuted index left stub =>
    have hlength : ((openEntries f.env s).map Prod.fst).length = leftovers.length := by
      simpa using hfiled.lastPass.records.length_eq
    have hreadable : ∀ other ∈ leftovers, ReadableStub f.env
        (getEntryPhase other.entry s.context.stepPhases.get?) other := by
      intro other hother
      have hsnd : ((((openEntries f.env s).map Prod.fst).zip leftovers).map Prod.snd) = leftovers :=
        List.map_snd_zip (le_of_eq hlength.symm)
      obtain ⟨pair, hpair, rfl⟩ := List.mem_map.mp (hsnd ▸ hother)
      have hleft := (hfiled.mem_unexecuted htold.recorded).mpr hpair
      rw [← hfiled.lastPass.context]
      exact htell.unexecuted _ hleft
    have hpair := (hfiled.mem_unexecuted htold.recorded).mp left
    obtain ⟨doc, hdoc, hcase⟩ :=
      exists_leftoverDocument hreadable (List.of_mem_zip hpair).2 stub
    exact ⟨doc, List.mem_append_right _ hdoc, hcase⟩

theorem WrittenFor.tells {f : Finished} {leftovers : List ResolvedEntry} {record : ResolvedEntry}
    {case : TestCase} (h : WrittenFor f record case)
    (hfiled : RunFiled f.env s leftovers f.state) (htold : Telling f.env s) (htell : TellableRun f) :
    Tells record.state case.status := by
  have hlog : ∀ phase log, .executed phase log ∈ f.state.visits → TrueLog log := by
    rw [hfiled.lastPass.visits]
    exact htold.logs
  have hunexecuted : ∀ {state : Option State}, state = some .skipped ∨ state = some .error →
      state.isSome ∧ state ≠ some .failed := by
    rintro state (rfl | rfl) <;> simp
  cases h with
  | resolved phase log visited terminal stub =>
    obtain ⟨hstate, hfailed⟩ := hunexecuted ((hlog phase log visited).resolved record terminal)
    exact tells_stubCase stub hstate hfailed
  | session phase log visited executed doc found listed named =>
    exact (hlog phase log visited).statuses record executed doc found case listed named
  | missing phase log visited missing stub =>
    exact tells_stubCase stub ((hlog phase log visited).executed record (mem_of_mem_missing missing))
      ((htell.phases phase log visited).failures record missing)
  | unexecuted index left stub =>
    have hpair := (hfiled.mem_unexecuted htold.recorded).mp left
    obtain ⟨i, hi, hrecord⟩ := List.getElem_of_mem (List.of_mem_zip hpair).2
    have hall := hfiled.lastPass.records
    have hstate := (hall.get (hall.length_eq ▸ hi) hi).2
    rw [List.get_eq_getElem, hrecord] at hstate
    obtain ⟨hstate, hfailed⟩ := hunexecuted hstate
    exact tells_stubCase stub hstate hfailed

/-! ## The whole report -/

theorem Sourced.listed {doc : JUnitDoc} (h : Sourced env doc)
    (hsession : ReportsTruly env.world.session) :
    ∀ name ∈ doc.caseNames, ∃ case ∈ doc.cases, case.name = some name := by
  cases h with
  | session index request exitCode captured returned =>
    exact (hsession index request exitCode captured doc returned).listed
  | stub phase records written =>
    rcases writeTerminalJunitXml_cases records (suiteName env phase) with hnone | ⟨suite, hsuite, _⟩
    · rw [written, hnone]
      simp [JUnitDoc.caseNames]
    · rw [written, hsuite]
      simp [JUnitDoc.caseNames, JUnitDoc.cases, JUnitDoc.contributed]

section Run

variable {f : Finished} {leftovers : List ResolvedEntry}

/-- Every record of the run has a test case. -/
theorem exists_writtenFor (hfiled : RunFiled f.env s leftovers f.state) (htold : Telling f.env s)
    (hsession : ReportsTruly f.env.world.session) (htell : TellableRun f) {record : ResolvedEntry}
    (h : record ∈ sortedRecords f.state.resolved) : ∃ case, WrittenFor f record case := by
  have hstub : ∀ {phase}, ReadableStub f.env phase record → ∃ case, stubCase? record = some case :=
    fun hreadable ↦ Option.isSome_iff_exists.mp hreadable.2
  obtain ⟨i, _, hget⟩ := List.mem_filterMap.mp h
  by_cases hkey : i ∈ s.resolved.keys
  · have hsettled : f.state.resolved.get? i = s.resolved.get? i := by
      rw [hfiled.lastPass.resolved]
      exact get?_settle_of_mem (List.Sublist.refl _) hkey
    rw [hsettled] at hget
    obtain ⟨phase, log, hvisited, _, hrecord⟩ := htold.recorded.logged i record hget
    have hlog := htold.logs phase log hvisited
    rw [← hfiled.lastPass.visits] at hvisited
    rcases hlog.records record hrecord with hresolved | hexecuted
    · obtain ⟨case, hcase⟩ := hstub ((htell.phases phase log hvisited).resolved record hresolved)
      exact ⟨case, .resolved phase log hvisited hresolved hcase⟩
    · rcases listed_or_missing hexecuted with hmissing | ⟨doc, hdoc, name, hname, hval⟩
      · obtain ⟨case, hcase⟩ := hstub ((htell.phases phase log hvisited).missing record hmissing)
        exact ⟨case, .missing phase log hvisited hmissing hcase⟩
      · have hsourced := hfiled.sourced doc (List.mem_append_left _
          (List.mem_flatMap.mpr ⟨_, hvisited, by simp [Visit.documents, PhaseLog.documents, hdoc]⟩))
        obtain ⟨case, hcase, hnamed⟩ := hsourced.listed hsession name hname
        exact ⟨case, .session phase log hvisited hexecuted doc hdoc hcase (by simp [hnamed, hval])⟩
  · have hleft : (i, record) ∈ f.unexecuted := by
      unfold Finished.unexecuted
      rw [List.mem_filter, decide_eq_true_eq, OrderedMap.mem_entries_iff, hfiled.lastPass.visits]
      exact ⟨hget, fun log hlog hi ↦ hkey (htold.recorded.keys log hlog i hi)⟩
    obtain ⟨case, hcase⟩ := hstub (htell.unexecuted _ hleft)
    exact ⟨case, .unexecuted i hleft hcase⟩

/-- Every test case in the documents was written for a record or stands for no entry. -/
theorem writtenFor_or_forNoEntry (hfiled : RunFiled f.env s leftovers f.state)
    (htold : Telling f.env s) {doc : JUnitDoc} (hdoc : doc ∈ visitDocuments f.env f.state.visits ++
      leftoverDocuments f.env s.context.stepPhases.get? leftovers) {case : TestCase}
    (hcase : case ∈ doc.cases) : (∃ record, WrittenFor f record case) ∨ ForNoEntry f case := by
  have hstub : ∀ {phase : String} {records : List ResolvedEntry},
      doc ∈ stubDocuments f.env phase records → ∃ record ∈ records, stubCase? record = some case := by
    intro phase records hmem
    unfold stubDocuments at hmem
    split at hmem
    · cases hmem
    · rw [List.mem_singleton] at hmem
      exact mem_cases_writeTerminalJunitXml (hmem ▸ hcase)
  rcases List.mem_append.mp hdoc with hvisits | hleft
  · obtain ⟨visit, hvisited, hmem⟩ := List.mem_flatMap.mp hvisits
    cases visit with
    | notRequested name => cases hmem
    | skipped name reason => cases hmem
    | executed phase log =>
      rw [Visit.documents, PhaseLog.documents, List.mem_append, List.mem_append,
        Option.mem_toList] at hmem
      rcases hmem with (hresolved | hreport) | hmissing
      · obtain ⟨record, hrecord, hcase⟩ := hstub hresolved
        exact Or.inl ⟨record, .resolved phase log hvisited hrecord hcase⟩
      · by_cases hnamed : ∃ record ∈ log.executed,
          case.name.map Subtype.val = some record.entry.name
        · obtain ⟨record, hrecord, hname⟩ := hnamed
          exact Or.inl ⟨record, .session phase log hvisited hrecord doc hreport hcase hname⟩
        · push Not at hnamed
          exact Or.inr ⟨phase, log, doc, hvisited, hreport, hcase, hnamed⟩
      · obtain ⟨record, hrecord, hcase⟩ := hstub hmissing
        exact Or.inl ⟨record, .missing phase log hvisited hrecord hcase⟩
  · obtain ⟨group, hgroup, rfl⟩ := List.mem_map.mp hleft
    obtain ⟨record, hrecord, hcase⟩ := mem_cases_writeTerminalJunitXml hcase
    have hlength : ((openEntries f.env s).map Prod.fst).length = leftovers.length := by
      simpa using hfiled.lastPass.records.length_eq
    have hsnd : ((((openEntries f.env s).map Prod.fst).zip leftovers).map Prod.snd) = leftovers :=
      List.map_snd_zip (le_of_eq hlength.symm)
    rw [mem_byPhase hgroup, List.mem_filter] at hrecord
    obtain ⟨pair, hpair, rfl⟩ := List.mem_map.mp (hsnd ▸ hrecord.1)
    exact Or.inl ⟨_, .unexecuted pair.1 ((hfiled.mem_unexecuted htold.recorded).mpr hpair) hcase⟩

end Run

/-- In a run with a report path, fresh files and sessions which report truly, the report tells the
truth about every entry where every stub can be read and no failed record is missing from its
session's report. -/
theorem report_faithful {world : World} {config : RunConfig} {options : RunOptions}
    {context : Context} {f : Finished} (hstart : Started world config options env context)
    (hrun : run world config options = .finished f)
    (hpath : (options.junitxml.filter (· ≠ "")).isSome) (hfresh : FreshRun env context)
    (hsession : ReportsTruly env.world.session) (htell : TellableRun f) :
    (f.result.validations ≠ [] → f.report.isSome) ∧
      ∀ report, f.report = some report →
        ∃ parsed, parseJunitXml (.suites report) = .ok parsed ∧ FaithfulReport f parsed := by
  obtain ⟨henv, s, hloop, hremaining⟩ := hstart.finished hrun
  obtain ⟨dir, hdir⟩ : ∃ dir, env.tmpdir = some dir := by
    rcases hstart.directory with ⟨hnone, _⟩ | ⟨_, dir, _, hdir⟩
    · rw [Option.isSome_iff_ne_none] at hpath
      exact absurd (Option.isNone_iff_eq_none.mp hnone) hpath
    · exact ⟨dir, hdir⟩
  have hmerge := (run_finished hrun).report
  have htold := telling_runPhases hdir hfresh.phases hsession hloop
  obtain ⟨leftovers, hfiled⟩ := htold.filed.finish hdir (hfresh.leftovers s hloop) hremaining
  rw [← henv] at hfiled htold hdir hsession
  have hresult := (run_finished hrun).result
  have hdocuments := hfiled.filing.merged hdir hmerge
  constructor
  · intro hsome
    rcases hdocuments with ⟨hnone, _⟩ | ⟨suites, hreport, _⟩
    · obtain ⟨record, hrecord⟩ := List.exists_mem_of_ne_nil _ hsome
      rw [hresult] at hrecord
      obtain ⟨case, hwritten⟩ := exists_writtenFor hfiled htold hsession htell hrecord
      obtain ⟨doc, hdoc, _⟩ := hwritten.exists_document hfiled htold htell
      rw [hnone] at hdoc
      cases hdoc
    · rw [hreport]
      rfl
  · intro report hreport
    rcases hdocuments with ⟨_, hnone⟩ | ⟨suites, hsome, hsuites⟩
    · rw [hnone] at hreport
      cases hreport
    · obtain rfl : suites = report := Option.some.inj (hsome.symm.trans hreport)
      have hconsistent := consistent_mergeJunitXmls
        (fun doc hdoc ↦ (hfiled.sourced doc hdoc).consistent hsession.countsOwnCases) hsuites
      obtain ⟨parsed, hparsed, htotals⟩ := parseJunitXml_suites hconsistent
      refine ⟨parsed, hparsed, ?_, ?_, ?_⟩
      · intro record hrecord
        rw [hresult] at hrecord
        exact exists_writtenFor hfiled htold hsession htell hrecord
      · intro record case hwritten
        obtain ⟨doc, hdoc, hcase⟩ := hwritten.exists_document hfiled htold htell
        have hmem := (mem_allCases_mergeJunitXmls hsuites).mpr ⟨doc, hdoc, case, hcase, rfl⟩
        refine ⟨?_, ?_, ?_⟩
        · rw [htotals.results]
          exact List.mem_map_of_mem hmem
        · simp [Finished.resultOf, parseCase, hwritten.name_eq]
        · change Tells record.state (redactCase _ case).status
          rw [status_redactCase]
          exact hwritten.tells hfiled htold htell
      · intro result hmem
        rw [htotals.results] at hmem
        obtain ⟨found, hfound, rfl⟩ := List.mem_map.mp hmem
        obtain ⟨doc, hdoc, case, hcase, rfl⟩ := (mem_allCases_mergeJunitXmls hsuites).mp hfound
        exact ⟨case, rfl, writtenFor_or_forNoEntry hfiled htold hdoc hcase⟩

/-! ## Concrete runs -/

instance (env : RunEnv) (phase : String) (record : ResolvedEntry) :
    Decidable (ReadableStub env phase record) := inferInstanceAs (Decidable (_ ∧ _))

instance (env : RunEnv) (phase : String) (log : PhaseLog) : Decidable (Tellable env phase log) :=
  decidable_of_iff ((∀ record ∈ log.preResolved, ReadableStub env phase record) ∧
      ∀ record ∈ log.missing, ReadableStub env phase record ∧ record.state ≠ some .failed)
    ⟨fun h ↦ ⟨h.1, fun record hmem ↦ (h.2 record hmem).1, fun record hmem ↦ (h.2 record hmem).2⟩,
      fun h ↦ ⟨h.resolved, fun record hmem ↦ ⟨h.missing record hmem, h.failures record hmem⟩⟩⟩

instance : DecidablePred TellableRun := fun f ↦
  have (visit : Visit) : Decidable (∀ phase log, .executed phase log = visit →
      Tellable f.env phase log) :=
    match visit with
    | .notRequested _ | .skipped _ _ => isTrue fun _ _ h ↦ by cases h
    | .executed phase log => decidable_of_iff (Tellable f.env phase log)
      ⟨fun h _ _ heq ↦ by cases heq; exact h, fun h ↦ h phase log rfl⟩
  decidable_of_iff ((∀ visit ∈ f.state.visits, ∀ phase log, .executed phase log = visit →
        Tellable f.env phase log) ∧
      ∀ item ∈ f.unexecuted, ReadableStub f.env
        (getEntryPhase item.2.entry f.state.context.stepPhases.get?) item.2)
    ⟨fun h ↦ ⟨fun phase log hmem ↦ h.1 _ hmem phase log rfl, h.2⟩,
      fun h ↦ ⟨fun _ hmem phase log heq ↦ h.phases phase log (heq ▸ hmem), h.unexecuted⟩⟩

theorem name_passingReport {request : SessionRequest} {name : XmlText}
    (h : name ∈ (passingReport request).caseNames) :
    ∃ case ∈ (passingReport request).cases, case.name = some name := by
  unfold passingReport at h ⊢
  split at h
  · rename_i names _
    have hmem : name ∈ names := by simpa [JUnitDoc.caseNames] using h
    refine ⟨{ name := some name }, ?_, rfl⟩
    simp only [JUnitDoc.cases, JUnitDoc.contributed, List.flatMap_singleton]
    exact List.mem_map_of_mem hmem
  · cases h

theorem reportsTruly_reporting : ReportsTruly World.reporting.session := by
  intro index request exitCode captured doc houtcome
  obtain ⟨_, hcaptured, hdoc⟩ := SessionOutcome.returned.inj houtcome
  obtain ⟨_, _, rfl⟩ := Option.map_eq_some_iff.mp hdoc
  refine ⟨countsOwnCases_reporting index request exitCode captured _ houtcome,
    fun name ↦ name_passingReport, ?_⟩
  intro name hname case hcase _
  have hkey : name ∈ (resultsByName captured).keys := by
    rw [← hcaptured, resultsByName, OrderedMap.mem_keys_ofList, List.map_map, List.map_map]
    exact hname
  obtain ⟨result, hresult⟩ := OrderedMap.mem_keys_iff.mp hkey
  have hmem := OrderedMap.mem_ofList hresult
  rw [← hcaptured, List.map_map] at hmem
  obtain ⟨item, _, heq⟩ := List.mem_map.mp hmem
  refine ⟨result, hresult, fun record ↦ ?_⟩
  rw [← (Prod.mk.inj heq).2]
  simp [resultToResolvedEntry, Tells, TestCase.status, TestCase.has, TestCase.find,
    children_passingReport hcase]

theorem report_faithful_lifecycle :
    (run .reporting .lifecycle .reported).Finishes fun f ↦
      (f.result.validations ≠ [] → f.report.isSome) ∧
        ∀ report, f.report = some report →
          ∃ parsed, parseJunitXml (.suites report) = .ok parsed ∧ FaithfulReport f parsed := by
  obtain ⟨env, context, hstart, hfresh⟩ := exists_started .reporting .lifecycle .reported
    (fun start ↦ decide (FreshRun start.1 start.2)) (by decide +kernel)
  have htell : (run .reporting .lifecycle .reported).Finishes TellableRun := by decide +kernel
  obtain ⟨f, hrun, htell⟩ := htell.exists_finished
  rw [hrun]
  apply report_faithful hstart hrun (by decide) (of_decide_eq_true hfresh) _ htell
  rw [hstart.world]
  exact reportsTruly_reporting

/-- The plain machine with sessions in which every validation fails and which write their report
elsewhere. -/
def World.unreported : World :=
  { World.plain with
    session := fun _ request ↦ .returned 1
      (request.validations.map fun item ↦ { name := item.1, passed := false }) none }

/-- A failed validation which is missing from its session's report is read back as passed. -/
theorem failure_reported_passed :
    accepted World.unreported.host (RunConfig.oneCheck "PingCheck") = true ∧
      ReportsTruly World.unreported.session ∧
      (run .unreported (RunConfig.oneCheck "PingCheck")
        { RunOptions.reported with extraPytestArgs := ["--junitxml=elsewhere.xml"] }).Finishes
          fun f ↦ f.report.isSome ∧ ∀ parsed, ¬FaithfulReport f parsed := by
  have htruly : ReportsTruly World.unreported.session := by
    intro index request exitCode captured doc houtcome
    cases houtcome
  refine ⟨by decide +kernel, htruly, ?_⟩
  have hchecked : (run .unreported (RunConfig.oneCheck "PingCheck")
      { RunOptions.reported with extraPytestArgs := ["--junitxml=elsewhere.xml"] }).Finishes
        fun f ↦ f.report.isSome ∧ ∃ visit ∈ f.state.visits, visit.log?.any fun log ↦
          log.missing.any fun record ↦
            decide (record.state = some .failed ∧ (stubCase? record).isSome) := by decide +kernel
  obtain ⟨f, hrun, hreport, visit, hvisited, hmissing⟩ := hchecked.exists_finished
  rw [hrun]
  refine ⟨hreport, fun parsed hfaithful ↦ ?_⟩
  cases visit with
  | notRequested name => cases hmissing
  | skipped name reason => cases hmissing
  | executed phase log =>
    obtain ⟨record, hrecord, hfailed⟩ := List.any_eq_true.mp hmissing
    obtain ⟨hstate, hstub⟩ := of_decide_eq_true hfailed
    obtain ⟨case, hcase⟩ := Option.isSome_iff_exists.mp hstub
    have htells := (hfaithful.truthful record case (.missing phase log hvisited hrecord hcase)).2.2
    rw [hstate] at htells
    change (redactCase _ case).status = .failed ∨ (redactCase _ case).status = .error at htells
    rw [status_redactCase, status_stubCase hcase, stubStatus, hstate] at htells
    simp at htells

end IsvValidation.Orchestrator
