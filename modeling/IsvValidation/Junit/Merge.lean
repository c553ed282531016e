import Mathlib.Algebra.Ring.Int.Defs
import Mathlib.Algebra.Order.BigOperators.Group.List
import Mathlib.Data.List.Sort
import IsvValidation.Config.Value
import IsvValidation.Library.OrderedMap
import IsvValidation.Junit.Document

/-!
# Merging and parsing JUnit reports

Per-phase files are folded into one report: suites with the same name become one suite whose test
cases are concatenated and whose counters are added. Test cases are then sorted into the order of
the configuration and redacted. The report parser reads counters and test cases separately.
-/

namespace IsvValidation.Junit

open Config Library

/-! ## Merging -/

/-- The suite `_fold_suite` leaves in its target. -/
def combine (target source : Suite) : Suite :=
  { target with
    tests := do return (← target.tests) + (← source.tests)
    failures := do return (← target.failures) + (← source.failures)
    errors := do return (← target.errors) + (← source.errors)
    skipped := do return (← target.skipped) + (← source.skipped)
    cases := target.cases ++ source.cases }

/-- All four counters hold integers. -/
def Suite.numeric (suite : Suite) : Bool :=
  suite.tests.isSome && suite.failures.isSome && suite.errors.isSome && suite.skipped.isSome

/-- `_fold_suite`; a counter which is no integer raises. -/
def foldSuite (target source : Suite) : Except PyError Suite :=
  if target.numeric && source.numeric then .ok (combine target source)
  else .error (.valueError "invalid literal for int() with base 10")

/-- Add one suite under its name. -/
def insertSuite (merged : OrderedMap String Suite) (suite : Suite) :
    Except PyError (OrderedMap String Suite) :=
  match merged.get? suite.key with
  | none => .ok (merged.insert suite.key suite)
  | some existing => do
    let folded ← foldSuite existing suite
    return merged.insert suite.key folded

/-- The part of a name before the first `::`. -/
def beforeColons : List Char → List Char
  | [] => []
  | ':' :: ':' :: _ => []
  | c :: rest => c :: beforeColons rest

/-- The sort key of a test case: the first position of its name in the order, or the end. -/
def orderKey (nameOrder : List String) (case : TestCase) : Nat :=
  nameOrder.idxOf (String.ofList (beforeColons ((case.name.map Subtype.val).getD "").toList))

/-- `_sort_suite_testcases`, a stable sort. -/
def sortSuiteTestcases (nameOrder : List String) (suite : Suite) : Suite :=
  { suite with
    cases := suite.cases.insertionSort fun a b ↦ orderKey nameOrder a ≤ orderKey nameOrder b }

section Redaction

variable (redact : XmlText → XmlText)

/-- An empty text is left alone. -/
def redactNonempty (text : XmlText) : XmlText := if text.val = "" then text else redact text

/-- `redact_junit_xml_tree` at one element. -/
def redactElement (element : Element) : Element :=
  match element.tag with
  | .failure | .error =>
    { element with
      message := element.message.map (redactNonempty redact)
      text := element.text.map (redactNonempty redact) }
  | .systemOut | .systemErr => { element with text := element.text.map (redactNonempty redact) }
  | _ => element

def redactCase (case : TestCase) : TestCase :=
  { case with children := case.children.map (redactElement redact) }

def redactSuite (suite : Suite) : Suite := { suite with cases := suite.cases.map (redactCase redact) }

/-- `_merge_junit_xmls` on the contents of the files which exist, as the suites below the root. -/
def mergeJunitXmls (docs : List JUnitDoc) (nameOrder : List String) :
    Except PyError (List Suite) := do
  let merged ← (docs.flatMap JUnitDoc.contributed).foldlM insertSuite OrderedMap.empty
  let sorted := if nameOrder.isEmpty then merged.values
    else merged.values.map (sortSuiteTestcases nameOrder)
  return sorted.map (redactSuite redact)

end Redaction

/-! ## Parsing -/

/-- One `TestResult`; `classname` and `name` default to `unknown`. -/
structure TestResult where
  name : String
  classname : String
  status : Status
  errorMessage : Option String := none
  errorType : Option String := none
  errorDetails : Option String := none
  systemOut : Option String := none
  systemErr : Option String := none
  deriving DecidableEq

/-- One `TestSuite`. -/
structure SuiteSummary where
  name : String
  tests : Int
  failures : Int
  errors : Int
  skipped : Int
  timestamp : Option String
  hostname : Option String
  deriving DecidableEq

structure JUnitReport where
  suites : List SuiteSummary
  results : List TestResult
  totalTests : Int
  totalFailures : Int
  totalErrors : Int
  totalSkipped : Int
  deriving DecidableEq

/-- The element whose message, type and text describe the outcome, with the type it defaults to. -/
def decisive (case : TestCase) : Option (Element × Option String) :=
  match case.find .skipped, case.find .error, case.find .failure with
  | some skipped, _, _ => some (skipped, none)
  | none, some error, _ => some (error, some "Error")
  | none, none, some failure => some (failure, some "AssertionError")
  | none, none, none => none

def parseCase (case : TestCase) : TestResult :=
  { name := (case.name.map Subtype.val).getD "unknown"
    classname := (case.classname.map Subtype.val).getD "unknown"
    status := case.status
    errorMessage := (decisive case).bind fun found ↦ found.1.message.map Subtype.val
    errorType := (decisive case).bind fun found ↦ (found.1.type.map Subtype.val).or found.2
    errorDetails := (decisive case).bind fun found ↦ found.1.text.map Subtype.val
    systemOut := (case.find .systemOut).bind fun found ↦ found.text.map Subtype.val
    systemErr := (case.find .systemErr).bind fun found ↦ found.text.map Subtype.val }

def parseCounter (counter : Option Int) : Except PyError Int :=
  match counter with
  | some value => .ok value
  | none => .error (.valueError "invalid literal for int() with base 10")

def parseSuite (suite : Suite) : Except PyError SuiteSummary := do
  return {
    name := (suite.name.map Subtype.val).getD "unknown"
    tests := ← parseCounter suite.tests
    failures := ← parseCounter suite.failures
    errors := ← parseCounter suite.errors
    skipped := ← parseCounter suite.skipped
    timestamp := suite.timestamp.map Subtype.val
    hostname := suite.hostname.map Subtype.val }

/-- `parse_junit_xml` on the content of a file. -/
def parseJunitXml (doc : JUnitDoc) : Except PyError JUnitReport := do
  if doc = .unparsable then throw (.other "ParseError" "not well-formed")
  let suites ← doc.contributed.mapM parseSuite
  return {
    suites
    results := doc.contributed.flatMap fun suite ↦ suite.cases.map parseCase
    totalTests := (suites.map SuiteSummary.tests).sum
    totalFailures := (suites.map SuiteSummary.failures).sum
    totalErrors := (suites.map SuiteSummary.errors).sum
    totalSkipped := (suites.map SuiteSummary.skipped).sum }

end IsvValidation.Junit
