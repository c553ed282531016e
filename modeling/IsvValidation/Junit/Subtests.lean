import IsvValidation.Host.Matching
import IsvValidation.Library.Arrange
import IsvValidation.Library.OrderedMap
import IsvValidation.Library.Splice

/-!
# Subtests in a JUnit report

pytest writes no test case for a subtest. After a run the subtests are put into the report, behind
the test cases they belong to, and the counters of the suite are recomputed. Subtests find their
place by name: the index of a name is that of the last child of the suite which bears it, whatever
the child is.
-/

namespace IsvValidation.Junit

open Host Library

/-! ## Elements -/

/-- An element of an XML tree, with the text behind it. -/
inductive Node where
  | element (tag : String) (attrib : OrderedMap String String) (text tail : Option String)
      (children : List Node)

namespace Node

def tag : Node → String
  | element tag .. => tag

def attrib : Node → OrderedMap String String
  | element _ attrib .. => attrib

def children : Node → List Node
  | element _ _ _ _ children => children

/-- `element.get(name, default)`. -/
def get (node : Node) (name default : String) : String := (node.attrib.get? name).getD default

/-- `element.set(name, value)`. -/
def set (name value : String) : Node → Node
  | element tag attrib text tail children =>
    element tag (attrib.insert name value) text tail children

/-- `element.find(tag) is not None`. -/
def has (node : Node) (tag : String) : Bool := node.children.any fun child ↦ child.tag = tag

def isTestcase (node : Node) : Bool := node.tag = "testcase"

/-- `element.get("name", "")`. -/
def name (node : Node) : String := node.get "name" ""

mutual

/-- The first element with a tag in document order. -/
def first? (tag : String) : Node → Option Node
  | element own attrib text tail children =>
    if own = tag then some (element own attrib text tail children) else firstIn? tag children

def firstIn? (tag : String) : List Node → Option Node
  | [] => none
  | node :: rest => (first? tag node).or (firstIn? tag rest)

end

mutual

/-- Change the first element with a tag in document order. -/
def modifyFirst (tag : String) (change : Node → Node) : Node → Node
  | element own attrib text tail children =>
    if own = tag then change (element own attrib text tail children)
    else element own attrib text tail (modifyFirstIn tag change children)

def modifyFirstIn (tag : String) (change : Node → Node) : List Node → List Node
  | [] => []
  | node :: rest =>
    if (first? tag node).isSome then modifyFirst tag change node :: rest
    else node :: modifyFirstIn tag change rest

end

end Node

/-! ## Subtest reports -/

inductive Outcome where
  | passed
  | failed
  | skipped
  deriving DecidableEq

/-- The `longrepr` of a report: its truth value, its text, and the texts of its parts when it is a
tuple. -/
structure LongRepr where
  truthy : Bool := false
  text : String := "None"
  parts : Option (List String) := none

/-- A report of a subtest. `seconds` is its duration with three decimals. -/
structure SubTestReport where
  nodeid : String
  msg : Option String := none
  seconds : String := "0.000"
  outcome : Outcome := .passed
  longrepr : LongRepr := {}

/-- `nodeid.split("::")[-1]`. -/
def lastPart : List Char → List Char → List Char
  | current, [] => current
  | _, ':' :: ':' :: rest => lastPart [] rest
  | current, c :: rest => lastPart (current ++ [c]) rest

/-- `_PARAMETRIZED_NAME_RE`: `^\w+\[(.+)]$`. -/
def parametrizedName (unicode : Unicode) : Pattern Char (List Char) := do
  let _ ← Pattern.some unicode.isWord
  let _ ← Pattern.one (· == '[')
  let name ← Pattern.some isInLine
  let _ ← Pattern.one (· == ']')
  let _ ← lineEnd
  return name

/-- The name under which the parent of a report stands in the suite. -/
def parentName (unicode : Unicode) (nodeid : String) : String :=
  let rawParent := lastPart [] nodeid.toList
  match (parametrizedName unicode).match? rawParent with
  | some (name, _) => .ofList name
  | none => .ofList rawParent

namespace SubTestReport

variable (report : SubTestReport)

/-- `report.context.msg or "<subtest>"`. -/
def description : String := (report.msg.filter (· ≠ "")).getD "<subtest>"

end SubTestReport

/-! ## Insertion -/

/-- An element of the suite: a child it had, by its position, or the test case made for a report, by
the position of the report. -/
inductive Placed where
  | child (index : ℕ) (node : Node)
  | subtest (index : ℕ) (node : Node)

namespace Placed

def node : Placed → Node
  | child _ node => node
  | subtest _ node => node

end Placed

section Inject

variable (unicode : Unicode)

end Inject

end IsvValidation.Junit
