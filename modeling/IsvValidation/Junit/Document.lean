import Mathlib.Data.List.Count
import Mathlib.Data.List.Perm.Basic

/-!
# JUnit documents

The elements of a JUnit report which the orchestrator and the report parser read. Texts are those
an XML 1.0 document can hold, so that a document with any other character cannot be built: writing
one gives a file which does not parse. Suites stand directly under the root.
-/

namespace IsvValidation.Junit

/-- The characters of an XML 1.0 document. -/
def isXmlChar (c : Char) : Bool :=
  c == '\t' || c == '\n' || c == '\r' ||
    (decide (' ' ≤ c) && c != Char.ofNat 0xFFFE && c != Char.ofNat 0xFFFF)

/-- Text which an XML document can hold. -/
abbrev XmlText := { text : String // text.toList.all isXmlChar = true }

/-- A string as XML text, when every character allows it. -/
def xmlText? (text : String) : Option XmlText :=
  if h : text.toList.all isXmlChar = true then some ⟨text, h⟩ else none

@[simp] theorem xmlText?_val (text : XmlText) : xmlText? text.val = some text := by
  simp [xmlText?, text.property]

theorem xmlText?_eq_some {text : String} {xml : XmlText} (h : xmlText? text = some xml) :
    xml.val = text := by
  unfold xmlText? at h
  split at h
  · cases h
    rfl
  · cases h

/-- The elements below a test case. -/
inductive Tag where
  | failure
  | error
  | skipped
  | systemOut
  | systemErr
  | other (name : String)
  deriving DecidableEq

structure Element where
  tag : Tag
  type : Option XmlText := none
  message : Option XmlText := none
  text : Option XmlText := none
  deriving DecidableEq

structure TestCase where
  name : Option XmlText := none
  classname : Option XmlText := none
  children : List Element := []
  deriving DecidableEq

/-- What the report parser makes of a test case. -/
inductive Status where
  | passed
  | failed
  | skipped
  | error
  deriving DecidableEq

namespace TestCase

def find (case : TestCase) (tag : Tag) : Option Element := case.children.find? (·.tag = tag)

def has (case : TestCase) (tag : Tag) : Bool := (case.find tag).isSome

theorem has_iff {case : TestCase} {tag : Tag} :
    case.has tag = true ↔ tag ∈ case.children.map Element.tag := by
  simp [has, find, List.find?_isSome]

/-- A failure, an error and a skip are tested in turn, and the last one found decides. -/
def status (case : TestCase) : Status :=
  if case.has .skipped then .skipped
  else if case.has .error then .error
  else if case.has .failure then .failed
  else .passed

/-- At most one of the children which decide the status. -/
def Single (case : TestCase) : Prop :=
  (case.has .failure → ¬case.has .error ∧ ¬case.has .skipped) ∧ (case.has .error → ¬case.has .skipped)

instance (case : TestCase) : Decidable case.Single := inferInstanceAs (Decidable (_ ∧ _))

end TestCase

/-- A test suite. A counter is `none` where its attribute does not hold an integer. -/
structure Suite where
  name : Option XmlText := none
  tests : Option Int := some 0
  failures : Option Int := some 0
  errors : Option Int := some 0
  skipped : Option Int := some 0
  timestamp : Option XmlText := none
  hostname : Option XmlText := none
  cases : List TestCase := []
  deriving DecidableEq

namespace Suite

/-- `suite.get("name") or ""`. -/
def key (suite : Suite) : String := (suite.name.map Subtype.val).getD ""

/-- The number of test cases with a child of the tag. -/
def count (suite : Suite) (tag : Tag) : Int := (suite.cases.countP (·.has tag) : Nat)

/-- The counters equal the numbers of the suite's own test cases. -/
structure Consistent (suite : Suite) : Prop where
  tests : suite.tests = some (suite.cases.length : Int)
  failures : suite.failures = some (suite.count .failure)
  errors : suite.errors = some (suite.count .error)
  skipped : suite.skipped = some (suite.count .skipped)

instance (suite : Suite) : Decidable suite.Consistent :=
  decidable_of_iff (suite.tests = some (suite.cases.length : Int) ∧
      suite.failures = some (suite.count .failure) ∧ suite.errors = some (suite.count .error) ∧
      suite.skipped = some (suite.count .skipped))
    ⟨fun h ↦ ⟨h.1, h.2.1, h.2.2.1, h.2.2.2⟩, fun h ↦ ⟨h.tests, h.failures, h.errors, h.skipped⟩⟩

end Suite

/-- What a file holds: no XML, a `testsuites` root, a single `testsuite`, or another root element
with the names of the test cases below it. -/
inductive JUnitDoc where
  | unparsable
  | suites (suites : List Suite)
  | suite (suite : Suite)
  | other (names : List XmlText)
  deriving DecidableEq

namespace JUnitDoc

/-- The suites a file contributes to a merged report. -/
def contributed : JUnitDoc → List Suite
  | .suites list => list
  | .suite only => [only]
  | _ => []

/-- The test cases a file contributes. -/
def cases (doc : JUnitDoc) : List TestCase := doc.contributed.flatMap Suite.cases

/-- The test cases a file contributes under one suite name. -/
def casesUnder (doc : JUnitDoc) (key : String) : List TestCase :=
  (doc.contributed.filter fun suite ↦ suite.key = key).flatMap Suite.cases

/-- The names of all test cases of a document. -/
def caseNames : JUnitDoc → List XmlText
  | .unparsable => []
  | .suites list => list.flatMap fun suite ↦ suite.cases.filterMap TestCase.name
  | .suite only => only.cases.filterMap TestCase.name
  | .other names => names

end JUnitDoc

end IsvValidation.Junit
