import Mathlib.Algebra.Order.BigOperators.Group.Finset
import Mathlib.Algebra.BigOperators.Group.Finset.Basic
import Mathlib.Algebra.FreeMonoid.Basic
import IsvValidation.Junit.Merge

/-!
# What merging keeps

Counters and test cases take separate paths through a merge. Test cases are neither lost nor
invented: under each suite name the report holds the test cases of all files, redacted. Counters
which equal their suite's test cases still do so afterwards, and the totals of the parsed report
are those of its results where no test case has two outcomes. A file listed twice is counted
twice, which is harmless only when it holds no test case.
-/

namespace IsvValidation.Junit

open Config Library

/-! ## Folding suites -/

theorem Suite.Consistent.numeric {suite : Suite} (h : suite.Consistent) : suite.numeric = true := by
  simp [Suite.numeric, h.tests, h.failures, h.errors, h.skipped]

theorem Suite.Consistent.combine {target source : Suite} (htarget : target.Consistent)
    (hsource : source.Consistent) : (combine target source).Consistent := by
  have hcount : ∀ tag, (Junit.combine target source).count tag =
      target.count tag + source.count tag := by
    intro tag
    simp [Suite.count, Junit.combine, List.countP_append]
  constructor
  · simp [Junit.combine, htarget.tests, hsource.tests]
  · rw [hcount]
    simp [Junit.combine, htarget.failures, hsource.failures]
  · rw [hcount]
    simp [Junit.combine, htarget.errors, hsource.errors]
  · rw [hcount]
    simp [Junit.combine, htarget.skipped, hsource.skipped]

/-- Each suite under its own name. -/
def keyed (suites : List Suite) : List (String × Suite) := suites.map fun suite ↦ (suite.key, suite)

/-- Adding suites one by one, where it succeeds, is grouping them by name. -/
theorem foldlM_insertSuite {suites : List Suite} {start merged : OrderedMap String Suite}
    (h : suites.foldlM insertSuite start = .ok merged) :
    merged = (keyed suites).foldl (fun map item ↦ map.insertWith combine item.1 item.2) start := by
  induction suites generalizing start with
  | nil =>
    cases h
    rfl
  | cons suite rest ih =>
    rw [List.foldlM_cons] at h
    cases hinsert : insertSuite start suite with
    | error e => rw [hinsert] at h; cases h
    | ok after =>
      rw [hinsert] at h
      rw [ih h, keyed, keyed, List.map_cons, List.foldl_cons]
      congr 1
      unfold insertSuite foldSuite at hinsert
      unfold OrderedMap.insertWith
      cases hget : start.get? suite.key with
      | none =>
        rw [hget] at hinsert
        cases hinsert
        rfl
      | some existing =>
        rw [hget] at hinsert
        simp only at hinsert
        split at hinsert
        · cases hinsert
          rfl
        · cases hinsert

/-- Suites whose counters are numbers can always be merged. -/
theorem foldlM_insertSuite_isOk {suites : List Suite} {start : OrderedMap String Suite}
    (hsuites : ∀ suite ∈ suites, suite.Consistent)
    (hstart : ∀ key suite, start.get? key = some suite → suite.Consistent) :
    ∃ merged, suites.foldlM insertSuite start = .ok merged := by
  induction suites generalizing start with
  | nil => exact ⟨start, rfl⟩
  | cons suite rest ih =>
    have hsuite := hsuites suite (List.mem_cons_self ..)
    have hrest : ∀ other ∈ rest, other.Consistent := fun other hmem ↦
      hsuites other (List.mem_cons_of_mem suite hmem)
    have hkeep : ∀ added : Suite, added.Consistent → ∀ key found,
        (start.insert suite.key added).get? key = some found → found.Consistent := by
      intro added hadded key found hget
      rw [OrderedMap.get?_insert] at hget
      split at hget
      · cases hget
        exact hadded
      · exact hstart key found hget
    rw [List.foldlM_cons]
    cases hget : start.get? suite.key with
    | none =>
      obtain ⟨merged, hmerged⟩ := ih hrest (hkeep suite hsuite)
      exact ⟨merged, by simpa [insertSuite, hget, bind, Except.bind] using hmerged⟩
    | some existing =>
      have hexisting := hstart _ _ hget
      obtain ⟨merged, hmerged⟩ := ih hrest (hkeep _ (hexisting.combine hsuite))
      refine ⟨merged, ?_⟩
      simpa [insertSuite, foldSuite, hget, hexisting.numeric, hsuite.numeric, bind, Except.bind,
        pure, Except.pure] using hmerged

/-! ## Sorting and redacting -/

section Redaction

variable {redact : XmlText → XmlText}

@[simp] theorem tag_redactElement (element : Element) :
    (redactElement redact element).tag = element.tag := by
  unfold redactElement
  split <;> simp_all

@[simp] theorem has_redactCase (case : TestCase) (tag : Tag) :
    (redactCase redact case).has tag = case.has tag := by
  rw [Bool.eq_iff_iff, TestCase.has_iff, TestCase.has_iff]
  simp [redactCase, List.map_map, Function.comp_def]

@[simp] theorem status_redactCase (case : TestCase) :
    (redactCase redact case).status = case.status := by
  simp [TestCase.status]

@[simp] theorem name_redactCase (case : TestCase) : (redactCase redact case).name = case.name := rfl

theorem single_redactCase {case : TestCase} : (redactCase redact case).Single ↔ case.Single := by
  simp [TestCase.Single]

variable (redact) in
/-- What a merge does to a folded suite. -/
def finishSuite (nameOrder : List String) (suite : Suite) : Suite :=
  redactSuite redact (if nameOrder.isEmpty then suite else sortSuiteTestcases nameOrder suite)

@[simp] theorem key_finishSuite (nameOrder : List String) (suite : Suite) :
    (finishSuite redact nameOrder suite).key = suite.key := by
  unfold finishSuite
  split <;> rfl

variable (redact) in
/-- Sorting moves test cases and redaction rewrites their texts, one by one. -/
theorem cases_finishSuite (nameOrder : List String) (suite : Suite) :
    (finishSuite redact nameOrder suite).cases.Perm (suite.cases.map (redactCase redact)) := by
  unfold finishSuite
  split
  · exact List.Perm.refl _
  · exact (List.perm_insertionSort _ suite.cases).map _

theorem Suite.Consistent.finishSuite {suite : Suite} (h : suite.Consistent)
    (nameOrder : List String) : (finishSuite redact nameOrder suite).Consistent := by
  have hperm := cases_finishSuite redact nameOrder suite
  have hcount : ∀ tag, (Junit.finishSuite redact nameOrder suite).count tag = suite.count tag := by
    intro tag
    unfold Suite.count
    rw [hperm.countP_eq, List.countP_map]
    simp [Function.comp_def]
  have hlength : (Junit.finishSuite redact nameOrder suite).cases.length = suite.cases.length := by
    rw [hperm.length_eq, List.length_map]
  have hcounters : (Junit.finishSuite redact nameOrder suite).tests = suite.tests ∧
      (Junit.finishSuite redact nameOrder suite).failures = suite.failures ∧
      (Junit.finishSuite redact nameOrder suite).errors = suite.errors ∧
      (Junit.finishSuite redact nameOrder suite).skipped = suite.skipped := by
    unfold Junit.finishSuite
    split <;> exact ⟨rfl, rfl, rfl, rfl⟩
  exact ⟨by rw [hcounters.1, hlength, h.tests], by rw [hcounters.2.1, hcount, h.failures],
    by rw [hcounters.2.2.1, hcount, h.errors], by rw [hcounters.2.2.2, hcount, h.skipped]⟩

end Redaction

/-! ## The merged report -/

section Report

variable {redact : XmlText → XmlText} {docs : List JUnitDoc} {nameOrder : List String}
  {report : List Suite}

/-- The suites of all files, grouped by name. -/
def grouped (docs : List JUnitDoc) : OrderedMap String Suite :=
  OrderedMap.groupWith combine (keyed (docs.flatMap JUnitDoc.contributed))

theorem eq_of_mergeJunitXmls (h : mergeJunitXmls redact docs nameOrder = .ok report) :
    report = (grouped docs).values.map (finishSuite redact nameOrder) := by
  unfold mergeJunitXmls at h
  cases hfold : (docs.flatMap JUnitDoc.contributed).foldlM insertSuite OrderedMap.empty with
  | error e => rw [hfold] at h; cases h
  | ok merged =>
    rw [hfold] at h
    cases h
    rw [foldlM_insertSuite hfold]
    unfold grouped OrderedMap.groupWith finishSuite
    split <;> simp [*]

/-- A folded suite is stored under its own name. -/
theorem key_grouped {key : String} {suite : Suite} (h : (grouped docs).get? key = some suite) :
    suite.key = key := by
  refine OrderedMap.forall_groupWith (P := fun key suite ↦ suite.key = key) ?_ ?_ key suite h
  · intro item hitem
    obtain ⟨suite, -, rfl⟩ := List.mem_map.mp hitem
    rfl
  · exact fun _ _ _ hkey _ ↦ hkey

theorem consistent_grouped (hdocs : ∀ doc ∈ docs, ∀ suite ∈ doc.contributed, suite.Consistent)
    {key : String} {suite : Suite} (h : (grouped docs).get? key = some suite) :
    suite.Consistent := by
  refine OrderedMap.forall_groupWith (P := fun _ suite ↦ suite.Consistent) ?_ ?_ key suite h
  · intro item hitem
    obtain ⟨suite, hsuite, rfl⟩ := List.mem_map.mp hitem
    obtain ⟨doc, hdoc, hmem⟩ := List.mem_flatMap.mp hsuite
    exact hdocs doc hdoc suite hmem
  · exact fun _ _ _ ha hb ↦ ha.combine hb

/-- Suite names are pairwise distinct in a merged report. -/
theorem nodup_mergeJunitXmls (h : mergeJunitXmls redact docs nameOrder = .ok report) :
    (report.map Suite.key).Nodup := by
  have hkeys : report.map Suite.key = (grouped docs).keys := by
    rw [eq_of_mergeJunitXmls h]
    simp only [OrderedMap.values, OrderedMap.keys, List.map_map]
    apply List.map_congr_left
    intro entry hentry
    have hget := OrderedMap.mem_entries_iff.mp (show (entry.1, entry.2) ∈ (grouped docs).entries
      from hentry)
    simp [key_grouped hget]
  rw [hkeys]
  exact (grouped docs).nodup_keys

theorem consistent_mergeJunitXmls
    (hdocs : ∀ doc ∈ docs, ∀ suite ∈ doc.contributed, suite.Consistent)
    (h : mergeJunitXmls redact docs nameOrder = .ok report) :
    ∀ suite ∈ report, suite.Consistent := by
  rw [eq_of_mergeJunitXmls h]
  intro suite hsuite
  obtain ⟨folded, hfolded, rfl⟩ := List.mem_map.mp hsuite
  obtain ⟨⟨key, value⟩, hentry, rfl⟩ := List.mem_map.mp hfolded
  exact (consistent_grouped hdocs (OrderedMap.mem_entries_iff.mp hentry)).finishSuite nameOrder

theorem mergeJunitXmls_isOk (redact : XmlText → XmlText) (nameOrder : List String)
    (hdocs : ∀ doc ∈ docs, ∀ suite ∈ doc.contributed, suite.Consistent) :
    ∃ report, mergeJunitXmls redact docs nameOrder = .ok report := by
  have hsuites : ∀ suite ∈ docs.flatMap JUnitDoc.contributed, suite.Consistent := by
    intro suite hsuite
    obtain ⟨doc, hdoc, hmem⟩ := List.mem_flatMap.mp hsuite
    exact hdocs doc hdoc suite hmem
  obtain ⟨merged, hmerged⟩ := foldlM_insertSuite_isOk hsuites fun key suite hget ↦ by
    rw [OrderedMap.get?_empty] at hget
    cases hget
  exact ⟨_, by rw [mergeJunitXmls, hmerged]; rfl⟩

/-- The test cases of a suite in their order, as an additive weight. -/
def caseList (suite : Suite) : FreeAddMonoid TestCase := FreeAddMonoid.ofList suite.cases

theorem caseList_combine (target source : Suite) :
    caseList (combine target source) = caseList target + caseList source := rfl

theorem sum_map_caseList (suites : List Suite) :
    (suites.map caseList).sum = FreeAddMonoid.ofList (suites.flatMap Suite.cases) := by
  induction suites with
  | nil => rfl
  | cons suite rest ih =>
    rw [List.map_cons, List.sum_cons, ih, List.flatMap_cons]
    rfl

/-- Folding appends test cases: a folded suite has those of all files in their order. -/
theorem cases_grouped {key : String} {suite : Suite} (h : (grouped docs).get? key = some suite) :
    suite.cases = docs.flatMap fun doc ↦ doc.casesUnder key := by
  have hweight := OrderedMap.weightAt_groupWith caseList_combine
    (keyed (docs.flatMap JUnitDoc.contributed)) key
  have hfilter : ((keyed (docs.flatMap JUnitDoc.contributed)).filter fun item ↦ item.1 = key).map
      (fun item ↦ caseList item.2) =
        ((docs.flatMap JUnitDoc.contributed).filter fun suite ↦ suite.key = key).map caseList := by
    simp [keyed, List.filter_map, Function.comp_def]
  rw [hfilter, sum_map_caseList] at hweight
  calc
    suite.cases = FreeAddMonoid.toList (OrderedMap.weightAt caseList (grouped docs) key) := by
      simp [OrderedMap.weightAt, h, caseList]
    _ = ((docs.flatMap JUnitDoc.contributed).filter fun suite ↦ suite.key = key).flatMap
        Suite.cases := congrArg FreeAddMonoid.toList hweight
    _ = docs.flatMap fun doc ↦ doc.casesUnder key := by
      simp [JUnitDoc.casesUnder, List.filter_flatMap, List.flatMap_assoc]

/-- A suite of a merged report shows the test cases of all files under its name, sorted. -/
theorem cases_mergeJunitXmls (h : mergeJunitXmls redact docs nameOrder = .ok report) {suite : Suite}
    (hsuite : suite ∈ report) :
    suite.cases = ((docs.flatMap fun doc ↦ doc.casesUnder suite.key).insertionSort
      fun a b ↦ orderKey nameOrder a ≤ orderKey nameOrder b).map (redactCase redact) := by
  rw [eq_of_mergeJunitXmls h] at hsuite
  obtain ⟨folded, hfolded, rfl⟩ := List.mem_map.mp hsuite
  obtain ⟨⟨key, value⟩, hentry, rfl⟩ := List.mem_map.mp hfolded
  have hget := OrderedMap.mem_entries_iff.mp hentry
  rw [key_finishSuite, key_grouped hget, ← cases_grouped hget]
  unfold finishSuite
  split
  · rename_i hempty
    rw [List.isEmpty_iff.mp hempty, List.Pairwise.insertionSort_eq]
    · rfl
    · exact List.pairwise_of_forall fun a b ↦ le_rfl
  · rfl

/-- The test cases which a merged report holds under a suite name. -/
def reported (report : List Suite) (key : String) : Multiset TestCase :=
  (JUnitDoc.suites report).casesUnder key

/-- The test cases of a suite as an additive weight. -/
def caseWeight (suite : Suite) : Multiset TestCase := suite.cases

theorem caseWeight_combine (target source : Suite) :
    caseWeight (combine target source) = caseWeight target + caseWeight source := rfl

theorem sum_map_caseWeight (suites : List Suite) :
    (suites.map caseWeight).sum =
      ((suites.flatMap Suite.cases : List TestCase) : Multiset TestCase) := by
  induction suites with
  | nil => rfl
  | cons suite rest ih =>
    rw [List.map_cons, List.sum_cons, ih, List.flatMap_cons, caseWeight, Multiset.coe_add]

/-- Under each name a merged report holds the redacted test cases of all files, each once for
every time its file is listed. -/
theorem reported_mergeJunitXmls (h : mergeJunitXmls redact docs nameOrder = .ok report)
    (key : String) :
    reported report key =
      (((docs.flatMap fun doc ↦ doc.casesUnder key).map (redactCase redact) : List TestCase) :
        Multiset TestCase) := by
  have hweight := OrderedMap.weightAt_groupWith caseWeight_combine
    (keyed (docs.flatMap JUnitDoc.contributed)) key
  have hall : ((keyed (docs.flatMap JUnitDoc.contributed)).filter fun item ↦ item.1 = key).map
      (fun item ↦ caseWeight item.2) =
        ((docs.flatMap JUnitDoc.contributed).filter fun suite ↦ suite.key = key).map
          caseWeight := by
    simp [keyed, List.filter_map, Function.comp_def]
  rw [hall, sum_map_caseWeight] at hweight
  have hcases : (docs.flatMap fun doc ↦ doc.casesUnder key) =
      ((docs.flatMap JUnitDoc.contributed).filter fun suite ↦ suite.key = key).flatMap
        Suite.cases := by
    simp [JUnitDoc.casesUnder, List.filter_flatMap, List.flatMap_assoc]
  rw [hcases, ← Multiset.map_coe, ← hweight, eq_of_mergeJunitXmls h]
  have hfilter : ((grouped docs).values.map (finishSuite redact nameOrder)).filter
      (fun suite ↦ suite.key = key) =
        ((grouped docs).get? key).toList.map (finishSuite redact nameOrder) := by
    have hentries := congrArg (List.map fun entry ↦ finishSuite redact nameOrder entry.2)
      ((grouped docs).filter_entries key)
    have hsame : (grouped docs).entries.filter (fun entry ↦ entry.1 = key) =
        (grouped docs).entries.filter fun entry ↦ entry.2.key = key := by
      apply List.filter_congr
      intro entry hentry
      have hget := OrderedMap.mem_entries_iff.mp (show (entry.1, entry.2) ∈ (grouped docs).entries
        from hentry)
      rw [key_grouped hget]
    rw [hsame] at hentries
    rw [OrderedMap.values, List.map_map, List.filter_map]
    simp only [Function.comp_def, key_finishSuite]
    rw [hentries]
    cases (grouped docs).get? key <;> rfl
  unfold reported JUnitDoc.casesUnder JUnitDoc.contributed
  rw [hfilter]
  change _ = Multiset.map (redactCase redact) (OrderedMap.weightAt caseWeight (grouped docs) key)
  unfold OrderedMap.weightAt
  cases (grouped docs).get? key with
  | none => rfl
  | some suite =>
    simp only [Option.toList_some, List.map_cons, List.map_nil, List.flatMap_cons,
      List.flatMap_nil, List.append_nil, Option.map_some, Option.getD_some, caseWeight,
      Multiset.map_coe]
    exact Multiset.coe_eq_coe.mpr (cases_finishSuite redact nameOrder suite)

end Report

end IsvValidation.Junit
