import Mathlib.Algebra.BigOperators.Ring.Finset
import IsvValidation.Library.Sequence
import IsvValidation.Junit.Fidelity

/-!
# Totals and repeated files

The parser adds up counters and classifies test cases independently. For a report whose counters
equal its own test cases the two agree exactly when no test case has two outcomes. A merge counts
each of its distinct files once exactly when every file listed twice holds no test case.
-/

namespace IsvValidation.Junit

open Config Library

/-- All test cases of a list of suites. -/
def allCases (suites : List Suite) : List TestCase := suites.flatMap Suite.cases

/-- The totals of a parsed report are the numbers of its results with each status. -/
structure TotalsMatch (parsed : JUnitReport) : Prop where
  tests : parsed.totalTests = parsed.results.length
  failures : parsed.totalFailures = (parsed.results.countP (·.status = .failed) : Nat)
  errors : parsed.totalErrors = (parsed.results.countP (·.status = .error) : Nat)
  skipped : parsed.totalSkipped = (parsed.results.countP (·.status = .skipped) : Nat)

/-- What the parser returns for a consistent list of suites. -/
structure Totals (suites : List Suite) (parsed : JUnitReport) : Prop where
  results : parsed.results = (allCases suites).map parseCase
  tests : parsed.totalTests = (allCases suites).length
  failures : parsed.totalFailures = ((allCases suites).countP (·.has .failure) : Nat)
  errors : parsed.totalErrors = ((allCases suites).countP (·.has .error) : Nat)
  skipped : parsed.totalSkipped = ((allCases suites).countP (·.has .skipped) : Nat)

/-- The summary of a suite whose counters equal its own test cases. -/
def summaryOf (suite : Suite) : SuiteSummary :=
  { name := (suite.name.map Subtype.val).getD "unknown"
    tests := suite.cases.length
    failures := suite.count .failure
    errors := suite.count .error
    skipped := suite.count .skipped
    timestamp := suite.timestamp.map Subtype.val
    hostname := suite.hostname.map Subtype.val }

theorem Suite.Consistent.parseSuite {suite : Suite} (h : suite.Consistent) :
    parseSuite suite = .ok (summaryOf suite) := by
  unfold Junit.parseSuite parseCounter
  rw [h.tests, h.failures, h.errors, h.skipped]
  rfl

theorem mapM_parseSuite {suites : List Suite} (h : ∀ suite ∈ suites, suite.Consistent) :
    suites.mapM parseSuite = .ok (suites.map summaryOf) := by
  induction suites with
  | nil => rfl
  | cons suite rest ih =>
    have hrest := ih fun other hmem ↦ h other (List.mem_cons_of_mem suite hmem)
    rw [List.mapM_cons, (h suite (List.mem_cons_self ..)).parseSuite, hrest]
    rfl

theorem sum_count (suites : List Suite) (tag : Tag) :
    (suites.map fun suite ↦ suite.count tag).sum = ((allCases suites).countP (·.has tag) : Nat) := by
  unfold allCases Suite.count
  rw [List.countP_flatMap, Nat.cast_list_sum, List.map_map]
  rfl

/-- A report with consistent counters always parses. -/
theorem parseJunitXml_suites {suites : List Suite} (h : ∀ suite ∈ suites, suite.Consistent) :
    ∃ parsed, parseJunitXml (.suites suites) = .ok parsed ∧ Totals suites parsed := by
  refine ⟨_, by simp only [parseJunitXml, reduceCtorEq, if_false, JUnitDoc.contributed,
    mapM_parseSuite h]; rfl, ?_⟩
  constructor
  · simp [allCases, List.map_flatMap]
  · change ((suites.map summaryOf).map SuiteSummary.tests).sum = _
    unfold allCases
    rw [List.map_map, List.length_flatMap, Nat.cast_list_sum, List.map_map]
    rfl
  · change ((suites.map summaryOf).map SuiteSummary.failures).sum = _
    rw [List.map_map, ← sum_count]
    rfl
  · change ((suites.map summaryOf).map SuiteSummary.errors).sum = _
    rw [List.map_map, ← sum_count]
    rfl
  · change ((suites.map summaryOf).map SuiteSummary.skipped).sum = _
    rw [List.map_map, ← sum_count]
    rfl

/-! ## Test cases with two outcomes -/

theorem countP_results (cases : List TestCase) (status : Status) :
    (cases.map parseCase).countP (·.status = status) = cases.countP (·.status = status) := by
  rw [List.countP_map]
  rfl

theorem status_eq_failed {case : TestCase} : case.status = .failed ↔
    case.has .failure ∧ ¬case.has .error ∧ ¬case.has .skipped := by
  unfold TestCase.status
  split_ifs <;> simp_all

theorem status_eq_error {case : TestCase} : case.status = .error ↔
    case.has .error ∧ ¬case.has .skipped := by
  unfold TestCase.status
  split_ifs <;> simp_all

theorem status_eq_skipped {case : TestCase} : case.status = .skipped ↔ case.has .skipped := by
  unfold TestCase.status
  split_ifs <;> simp_all

/-- Counters and statuses agree exactly when no test case has two outcomes. -/
theorem totalsMatch_iff {suites : List Suite} {parsed : JUnitReport} (h : Totals suites parsed) :
    TotalsMatch parsed ↔ ∀ case ∈ allCases suites, case.Single := by
  have hfailed : (allCases suites).countP (fun case ↦ decide (case.status = .failed)) =
      (allCases suites).countP (·.has .failure) ↔ _ := countP_eq_iff_of_imp fun case _ hstatus ↦
    (status_eq_failed.mp (of_decide_eq_true hstatus)).1
  have herror : (allCases suites).countP (fun case ↦ decide (case.status = .error)) =
      (allCases suites).countP (·.has .error) ↔ _ := countP_eq_iff_of_imp fun case _ hstatus ↦
    (status_eq_error.mp (of_decide_eq_true hstatus)).1
  constructor
  · intro hmatch case hcase
    have hfailures : (allCases suites).countP (fun case ↦ decide (case.status = .failed)) =
        (allCases suites).countP (·.has .failure) := by
      have := hmatch.failures
      rw [h.failures, h.results, countP_results] at this
      exact_mod_cast this.symm
    have herrors : (allCases suites).countP (fun case ↦ decide (case.status = .error)) =
        (allCases suites).countP (·.has .error) := by
      have := hmatch.errors
      rw [h.errors, h.results, countP_results] at this
      exact_mod_cast this.symm
    refine ⟨fun hhas ↦ ?_, fun hhas ↦ ?_⟩
    · have hstatus := hfailed.mp hfailures case hcase hhas
      exact (status_eq_failed.mp (of_decide_eq_true hstatus)).2
    · have hstatus := herror.mp herrors case hcase hhas
      exact (status_eq_error.mp (of_decide_eq_true hstatus)).2
  · intro hsingle
    constructor
    · rw [h.tests, h.results, List.length_map]
    · rw [h.failures, h.results, countP_results, hfailed.mpr]
      intro case hcase hhas
      exact decide_eq_true (status_eq_failed.mpr ⟨hhas, (hsingle case hcase).1 hhas⟩)
    · rw [h.errors, h.results, countP_results, herror.mpr]
      intro case hcase hhas
      exact decide_eq_true (status_eq_error.mpr ⟨hhas, (hsingle case hcase).2 hhas⟩)
    · rw [h.skipped, h.results, countP_results]
      congr 1
      apply List.countP_congr
      intro case _
      simp [status_eq_skipped]

/-! ## Files listed more than once -/

section Files

variable (redact : XmlText → XmlText) (content : String → Option JUnitDoc)

/-- What a list of files contributes under a suite name. -/
def contribution (files : List String) (key : String) : Multiset TestCase :=
  (((files.filterMap content).flatMap fun doc ↦ doc.casesUnder key).map (redactCase redact) :
    List TestCase)

/-- A merged report loses and invents nothing: suite names are distinct, each distinct file counts
once, counters equal test cases and totals equal results. -/
structure FaithfulMerge (files : List String) (report : List Suite) : Prop where
  names : (report.map Suite.key).Nodup
  cases : ∀ key, reported report key = contribution redact content files.dedup key
  counters : ∀ suite ∈ report, suite.Consistent
  totals : ∃ parsed, parseJunitXml (.suites report) = .ok parsed ∧ TotalsMatch parsed

variable {redact content}

/-- The number of test cases a file holds under a suite name. -/
def weightUnder (content : String → Option JUnitDoc) (key path : String) : ℕ :=
  ((content path).map fun doc ↦ (doc.casesUnder key).length).getD 0

theorem card_contribution (files : List String) (key : String) :
    (contribution redact content files key).card = (files.map (weightUnder content key)).sum := by
  unfold contribution
  rw [Multiset.coe_card, List.length_map]
  induction files with
  | nil => rfl
  | cons path rest ih =>
    rw [List.map_cons, List.sum_cons, ← ih, List.filterMap_cons]
    cases hpath : content path with
    | none => simp [weightUnder, hpath]
    | some doc => simp [weightUnder, hpath]

/-- Leaving out the repetitions changes nothing exactly when repeated files are empty. -/
theorem contribution_dedup (files : List String) :
    (∀ key, contribution redact content files key = contribution redact content files.dedup key) ↔
      ∀ path, 2 ≤ files.count path → ∀ doc, content path = some doc → doc.cases = [] := by
  constructor
  · intro h path htwo doc hdoc
    refine List.flatMap_eq_nil_iff.mpr fun suite hsuite ↦ ?_
    have hcard := congrArg Multiset.card (h suite.key)
    rw [card_contribution, card_contribution] at hcard
    have hzero := (sum_map_eq_dedup_iff _ files).mp hcard path htwo
    simp only [weightUnder, hdoc, Option.map_some, Option.getD_some, List.length_eq_zero_iff,
      JUnitDoc.casesUnder, List.flatMap_eq_nil_iff] at hzero
    exact hzero suite (List.mem_filter.mpr ⟨hsuite, by simp⟩)
  · intro h key
    -- dropping one repetition at a time, the last occurrence of each file stays
    unfold contribution
    rw [Multiset.coe_eq_coe]
    apply List.Perm.map
    induction files with
    | nil => rfl
    | cons path rest ih =>
      have hrest := ih fun other htwo ↦ h other (htwo.trans (List.count_le_count_cons ..))
      by_cases hmem : path ∈ rest
      · rw [List.dedup_cons_of_mem hmem]
        have htwo : 2 ≤ (path :: rest).count path := by
          have := List.count_pos_iff.mpr hmem
          rw [List.count_cons_self]
          omega
        cases hdoc : content path with
        | none =>
          rw [List.filterMap_cons, hdoc]
          exact hrest
        | some doc =>
          have hempty : doc.casesUnder key = [] := by
            rw [JUnitDoc.casesUnder, List.flatMap_eq_nil_iff]
            intro suite hsuite
            exact List.flatMap_eq_nil_iff.mp (h path htwo doc hdoc) suite (List.mem_filter.mp hsuite).1
          rw [List.filterMap_cons, hdoc, List.flatMap_cons, hempty, List.nil_append]
          exact hrest
      · rw [List.dedup_cons_of_notMem hmem]
        cases hdoc : content path with
        | none => simpa only [List.filterMap_cons, hdoc] using hrest
        | some doc =>
          simp only [List.filterMap_cons, hdoc, List.flatMap_cons]
          exact hrest.append_left _

theorem mem_allCases_iff {suites : List Suite} {case : TestCase} :
    case ∈ allCases suites ↔ ∃ key, case ∈ reported suites key := by
  simp only [allCases, List.mem_flatMap, reported, JUnitDoc.casesUnder, JUnitDoc.contributed,
    Multiset.mem_coe, List.mem_filter, decide_eq_true_eq]
  constructor
  · rintro ⟨suite, hsuite, hcase⟩
    exact ⟨suite.key, suite, ⟨hsuite, rfl⟩, hcase⟩
  · rintro ⟨_, suite, ⟨hsuite, -⟩, hcase⟩
    exact ⟨suite, hsuite, hcase⟩

/-- A merged report holds the test cases of the files, redacted, and no others. -/
theorem mem_allCases_mergeJunitXmls {docs : List JUnitDoc} {nameOrder : List String}
    {report : List Suite} (h : mergeJunitXmls redact docs nameOrder = .ok report)
    {case : TestCase} : case ∈ allCases report ↔
      ∃ doc ∈ docs, ∃ original ∈ doc.cases, redactCase redact original = case := by
  rw [mem_allCases_iff]
  simp only [reported_mergeJunitXmls h, Multiset.mem_coe, List.mem_map, List.mem_flatMap,
    JUnitDoc.casesUnder, JUnitDoc.cases, List.mem_filter, decide_eq_true_eq]
  constructor
  · rintro ⟨key, original, ⟨doc, hdoc, suite, ⟨hsuite, -⟩, hcase⟩, rfl⟩
    exact ⟨doc, hdoc, original, ⟨suite, hsuite, hcase⟩, rfl⟩
  · rintro ⟨doc, hdoc, original, ⟨suite, hsuite, hcase⟩, rfl⟩
    exact ⟨suite.key, original, ⟨doc, hdoc, suite, ⟨hsuite, rfl⟩, hcase⟩, rfl⟩

/-- Every test case of a merged report comes from a file, with the same children. -/
theorem single_mergeJunitXmls {docs : List JUnitDoc} {nameOrder : List String} {report : List Suite}
    (h : mergeJunitXmls redact docs nameOrder = .ok report) :
    (∀ case ∈ allCases report, case.Single) ↔ ∀ doc ∈ docs, ∀ case ∈ doc.cases, case.Single := by
  constructor
  · intro hall doc hdoc case hcase
    exact single_redactCase.mp (hall _ ((mem_allCases_mergeJunitXmls h).mpr
      ⟨doc, hdoc, case, hcase, rfl⟩))
  · intro hall case hcase
    obtain ⟨doc, hdoc, original, horiginal, rfl⟩ := (mem_allCases_mergeJunitXmls h).mp hcase
    exact single_redactCase.mpr (hall doc hdoc original horiginal)

/-- A merge of consistent files is faithful exactly when no file that is listed again holds a test
case and no test case has two outcomes. -/
theorem faithfulMerge_iff_files {files : List String} {nameOrder : List String}
    {report : List Suite}
    (hfiles : ∀ path ∈ files, ∀ doc, content path = some doc →
      ∀ suite ∈ doc.contributed, suite.Consistent)
    (h : mergeJunitXmls redact (files.filterMap content) nameOrder = .ok report) :
    FaithfulMerge redact content files report ↔
      (∀ path, 2 ≤ files.count path → ∀ doc, content path = some doc → doc.cases = []) ∧
      ∀ doc ∈ files.filterMap content, ∀ case ∈ doc.cases, case.Single := by
  have hdocs : ∀ doc ∈ files.filterMap content, ∀ suite ∈ doc.contributed, suite.Consistent := by
    intro doc hdoc
    obtain ⟨path, hpath, hcontent⟩ := List.mem_filterMap.mp hdoc
    exact hfiles path hpath doc hcontent
  have hreported : ∀ key, reported report key = contribution redact content files key :=
    reported_mergeJunitXmls h
  have hconsistent := consistent_mergeJunitXmls hdocs h
  obtain ⟨parsed, hparsed, htotals⟩ := parseJunitXml_suites hconsistent
  rw [← contribution_dedup, ← single_mergeJunitXmls h, ← totalsMatch_iff htotals]
  constructor
  · intro hfaithful
    obtain ⟨other, hother, hmatch⟩ := hfaithful.totals
    rw [hparsed] at hother
    cases hother
    exact ⟨fun key ↦ (hreported key).symm.trans (hfaithful.cases key), hmatch⟩
  · rintro ⟨honce, hmatch⟩
    exact ⟨nodup_mergeJunitXmls h, fun key ↦ (hreported key).trans (honce key), hconsistent,
      parsed, hparsed, hmatch⟩

end Files

end IsvValidation.Junit
