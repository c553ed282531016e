import IsvValidation.Library.Sequence
import IsvValidation.Junit.Document
import IsvValidation.Resolution.Entries

/-!
# Stub reports

Entries which never reach pytest's own report are written to a stub file, one test case each. A
skipped or error entry gets the matching child element; every other state gets none.
-/

namespace IsvValidation.Junit

open Library Resolution

/-- The child element of an entry's test case, as raw strings: tag, type, message and text. -/
structure RawElement where
  tag : Tag
  type : String
  message : String
  text : Option String

/-- What `_write_terminal_junit_xml` puts below the test case of an entry. -/
def stubChild (record : ResolvedEntry) : Option RawElement :=
  match record.state with
  | some .skipped =>
    let reason := (record.skipReason.getD .excluded).value
    some ⟨.skipped, reason, if record.message = "" then reason else record.message, none⟩
  | some .error =>
    let reason := (record.errorReason.getD .runtimeException).value
    some ⟨.error, reason, if record.message = "" then reason else record.message,
      if record.message = "" then none else some record.message⟩
  | _ => none

/-- The element as the parser reads it back, when all its texts can be read. -/
def RawElement.read? (raw : RawElement) : Option Element := do
  let type ← xmlText? raw.type
  let message ← xmlText? raw.message
  match raw.text with
  | none => return { tag := raw.tag, type := some type, message := some message }
  | some text =>
    let text ← xmlText? text
    return { tag := raw.tag, type := some type, message := some message, text := some text }

/-- The test case of one entry as the parser reads it back. -/
def stubCase? (record : ResolvedEntry) : Option TestCase := do
  let name ← xmlText? record.entry.name
  match stubChild record with
  | none => return { name := some name }
  | some raw =>
    let child ← raw.read?
    return { name := some name, children := [child] }

/-- `_write_terminal_junit_xml`: the file's content as a parser reads it. A character which XML
does not allow anywhere in the file makes all of it unparsable. -/
def writeTerminalJunitXml (records : List ResolvedEntry) (suiteName : String) : JUnitDoc :=
  match xmlText? suiteName, records.mapM stubCase? with
  | some name, some cases =>
    .suite
      { name := some name
        tests := some records.length
        failures := some 0
        errors := some (records.countP (·.state = some .error) : Nat)
        skipped := some (records.countP (·.state = some .skipped) : Nat)
        cases }
  | _, _ => .unparsable

/-- `_entries_missing_from_junit`; `none` is a file which does not exist. -/
def entriesMissingFromJunit (records : List ResolvedEntry) (doc : Option JUnitDoc) :
    List ResolvedEntry :=
  match doc with
  | none => records
  | some .unparsable => records
  | some doc =>
    let captured := (doc.caseNames.map Subtype.val).filter (· != "")
    records.filter fun record ↦ !captured.contains record.entry.name

/-! ## What a stub says -/

/-- The status under which an entry's stub is read back. -/
def stubStatus (record : ResolvedEntry) : Status :=
  match record.state with
  | some .skipped => .skipped
  | some .error => .error
  | _ => .passed

theorem RawElement.read?_tag {raw : RawElement} {child : Element} (h : raw.read? = some child) :
    child.tag = raw.tag := by
  unfold RawElement.read? at h
  cases htype : xmlText? raw.type with
  | none => simp [htype] at h
  | some type =>
    cases hmessage : xmlText? raw.message with
    | none => simp [htype, hmessage] at h
    | some message =>
      cases htext : raw.text with
      | none =>
        simp only [htype, hmessage, htext, Option.bind_eq_bind, Option.bind_some, pure,
          Option.some.injEq] at h
        rw [← h]
      | some text =>
        cases hread : xmlText? text with
        | none => simp [htype, hmessage, htext, hread] at h
        | some read =>
          simp only [htype, hmessage, htext, hread, Option.bind_eq_bind, Option.bind_some, pure,
            Option.some.injEq] at h
          rw [← h]

/-- A stub carries its entry's name and, below it, at most the one child of the entry's state. -/
theorem stubCase?_eq_some {record : ResolvedEntry} {case : TestCase}
    (h : stubCase? record = some case) :
    case.name.map Subtype.val = some record.entry.name ∧
      case.children.map Element.tag = (stubChild record).toList.map RawElement.tag := by
  unfold stubCase? at h
  cases hname : xmlText? record.entry.name with
  | none => simp [hname] at h
  | some name =>
    have hval := xmlText?_eq_some hname
    cases hchild : stubChild record with
    | none =>
      simp only [hname, hchild, Option.bind_eq_bind, Option.bind_some, pure,
        Option.some.injEq] at h
      subst h
      exact ⟨by simp [hval], by simp⟩
    | some raw =>
      cases hread : raw.read? with
      | none => simp [hname, hchild, hread] at h
      | some child =>
        simp only [hname, hchild, hread, Option.bind_eq_bind, Option.bind_some, pure,
          Option.some.injEq] at h
        subst h
        exact ⟨by simp [hval], by simp [RawElement.read?_tag hread]⟩

theorem stubChild_tags (record : ResolvedEntry) :
    (stubChild record).toList.map RawElement.tag =
      match record.state with
      | some .skipped => [.skipped]
      | some .error => [.error]
      | _ => [] := by
  unfold stubChild
  cases record.state with
  | none => rfl
  | some state => cases state <;> rfl

theorem has_stubCase {record : ResolvedEntry} {case : TestCase} (h : stubCase? record = some case)
    (tag : Tag) : case.has tag = true ↔
      (tag = .skipped ∧ record.state = some .skipped) ∨
        (tag = .error ∧ record.state = some .error) := by
  rw [TestCase.has_iff, (stubCase?_eq_some h).2, stubChild_tags]
  cases record.state with
  | none => simp
  | some state => cases state <;> simp

theorem status_stubCase {record : ResolvedEntry} {case : TestCase}
    (h : stubCase? record = some case) : case.status = stubStatus record := by
  have hskipped := has_stubCase h .skipped
  have herror := has_stubCase h .error
  have hfailure := has_stubCase h .failure
  simp only [true_and, reduceCtorEq, false_and, or_false, false_or, iff_false,
    Bool.not_eq_true] at hskipped herror hfailure
  unfold TestCase.status stubStatus
  simp only [hskipped, herror, hfailure]
  cases record.state with
  | none => simp
  | some state => cases state <;> simp

/-- A stub file which parses is one suite whose counters equal its own test cases, one for each
entry in order. -/
theorem writeTerminalJunitXml_eq_suite {records : List ResolvedEntry} {suiteName : String}
    (hname : (xmlText? suiteName).isSome) (hcases : ∀ record ∈ records, (stubCase? record).isSome) :
    ∃ suite : Suite, writeTerminalJunitXml records suiteName = .suite suite ∧ suite.Consistent ∧
      suite.key = suiteName ∧
      List.Forall₂ (fun record case ↦ stubCase? record = some case) records suite.cases := by
  obtain ⟨name, hname⟩ := Option.isSome_iff_exists.mp hname
  obtain ⟨cases, hcases⟩ := exists_mapM_some hcases
  have hstubs := mapM_eq_some_iff.mp hcases
  have hcount : ∀ (tag : Tag) (p : ResolvedEntry → Bool),
      (∀ record case, stubCase? record = some case → p record = case.has tag) →
        records.countP p = cases.countP (·.has tag) := fun tag p h ↦
    countP_eq_of_forall₂ hstubs h
  have hfailures : cases.countP (·.has .failure) = 0 := by
    rw [← hcount .failure (fun _ ↦ false)]
    · simp
    · intro record case hstub
      rw [Bool.eq_iff_iff, has_stubCase hstub]
      simp
  have herrors := hcount .error (·.state = some .error) fun record case hstub ↦ by
    rw [Bool.eq_iff_iff, has_stubCase hstub]
    simp
  have hskipped := hcount .skipped (·.state = some .skipped) fun record case hstub ↦ by
    rw [Bool.eq_iff_iff, has_stubCase hstub]
    simp
  refine ⟨_, by rw [writeTerminalJunitXml, hname, hcases], ⟨?_, ?_, ?_, ?_⟩, ?_, hstubs⟩
  · simp [hstubs.length_eq]
  · simp [Suite.count, hfailures]
  · simp [Suite.count, herrors]
  · simp [Suite.count, hskipped]
  · simp [Suite.key, xmlText?_eq_some hname]

/-- A stub file either holds a character which XML does not allow, or its suite is consistent. -/
theorem writeTerminalJunitXml_cases (records : List ResolvedEntry) (suiteName : String) :
    writeTerminalJunitXml records suiteName = .unparsable ∨
      ∃ suite : Suite, writeTerminalJunitXml records suiteName = .suite suite ∧ suite.Consistent ∧
        List.Forall₂ (fun record case ↦ stubCase? record = some case) records suite.cases := by
  cases hname : xmlText? suiteName with
  | none => exact Or.inl (by simp [writeTerminalJunitXml, hname])
  | some name =>
    cases hcases : records.mapM stubCase? with
    | none => exact Or.inl (by simp [writeTerminalJunitXml, hname, hcases])
    | some cases =>
      right
      have hstubs := mapM_eq_some_iff.mp hcases
      obtain ⟨suite, hsuite, hconsistent, _, hall⟩ :=
        writeTerminalJunitXml_eq_suite (Option.isSome_of_eq_some hname) fun record hrecord ↦ by
          obtain ⟨i, hi, rfl⟩ := List.getElem_of_mem hrecord
          exact Option.isSome_of_eq_some (hstubs.get hi (hstubs.length_eq ▸ hi))
      exact ⟨suite, hsuite, hconsistent, hall⟩

theorem consistent_writeTerminalJunitXml (records : List ResolvedEntry) (suiteName : String) :
    ∀ suite ∈ (writeTerminalJunitXml records suiteName).contributed, suite.Consistent := by
  intro suite hsuite
  rcases writeTerminalJunitXml_cases records suiteName with hnone | ⟨only, honly, hconsistent, _⟩
  · simp [hnone, JUnitDoc.contributed] at hsuite
  · rw [honly, JUnitDoc.contributed, List.mem_singleton] at hsuite
    rwa [hsuite]

/-- The test cases of a stub file are those of its records. -/
theorem mem_cases_writeTerminalJunitXml {records : List ResolvedEntry} {suiteName : String}
    {case : TestCase} (h : case ∈ (writeTerminalJunitXml records suiteName).cases) :
    ∃ record ∈ records, stubCase? record = some case := by
  rcases writeTerminalJunitXml_cases records suiteName with hnone | ⟨suite, hsuite, _, hstubs⟩
  · simp [hnone, JUnitDoc.cases, JUnitDoc.contributed] at h
  · simp only [hsuite, JUnitDoc.cases, JUnitDoc.contributed, List.flatMap_singleton] at h
    obtain ⟨i, hi, rfl⟩ := List.getElem_of_mem h
    exact ⟨_, List.getElem_mem (hstubs.length_eq ▸ hi), hstubs.get (hstubs.length_eq ▸ hi) hi⟩

/-- Where every text is allowed, every record has its test case in the file. -/
theorem stubCase_mem_cases {records : List ResolvedEntry} {suiteName : String}
    (hname : (xmlText? suiteName).isSome) (hcases : ∀ record ∈ records, (stubCase? record).isSome)
    {record : ResolvedEntry} {case : TestCase} (hrecord : record ∈ records)
    (hcase : stubCase? record = some case) :
    case ∈ (writeTerminalJunitXml records suiteName).cases := by
  obtain ⟨suite, hsuite, _, _, hstubs⟩ := writeTerminalJunitXml_eq_suite hname hcases
  obtain ⟨i, hi, rfl⟩ := List.getElem_of_mem hrecord
  have hstub := hstubs.get hi (hstubs.length_eq ▸ hi)
  simp only [List.get_eq_getElem, hcase, Option.some.injEq] at hstub
  simp only [hsuite, JUnitDoc.cases, JUnitDoc.contributed, List.flatMap_singleton]
  rw [hstub]
  exact List.getElem_mem _

/-- A stub has at most one outcome. -/
theorem single_stubCase {record : ResolvedEntry} {case : TestCase}
    (h : stubCase? record = some case) : case.Single := by
  have hfailure := has_stubCase h .failure
  have herror := has_stubCase h .error
  have hskipped := has_stubCase h .skipped
  constructor
  · intro hhas
    simp [hfailure] at hhas
  · intro hhas hskip
    simp_all

end IsvValidation.Junit
