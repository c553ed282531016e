import IsvValidation.Junit.Subtests
import Mathlib.Data.List.Pairwise

/-!
# Where subtests end up

With every test case of a suite named differently, each test case should be followed by its own
subtests in the order of their reports. This is what happens as long as no later child of the suite
bears the name of a parent, and the reports of one parent name come from one node. The proof reads
the insertions as blocks behind the children and compares the blocks.
-/

namespace IsvValidation.Junit

open Host Library

/-! ## The intended suite -/

section Intended

variable (unicode : Unicode)

/-- No child behind a parent test case bears its name, and reports with one parent name come from
one node. -/
structure Unambiguous (suite : Node) (reports : List SubTestReport) : Prop where
  last : ∀ report ∈ reports, suite.children.Pairwise fun child later ↦ child.isTestcase = true →
    child.name = parentName unicode report.nodeid → later.name ≠ child.name
  sameNode : ∀ report ∈ reports, ∀ other ∈ reports,
    parentName unicode report.nodeid = parentName unicode other.nodeid → report.nodeid = other.nodeid

end Intended

/-! ## The first suite of a document -/

theorem Node.first?_of_tag {node : Node} {tag : String} (h : node.tag = tag) :
    node.first? tag = some node := by
  match node with
  | .element own _ _ _ _ =>
    have hown : own = tag := h
    rw [Node.first?, if_pos hown]

mutual

theorem Node.first?_modifyFirst (tag : String) {change : Node → Node}
    (hchange : ∀ node, (change node).tag = node.tag) :
    ∀ node : Node, (node.modifyFirst tag change).first? tag = (node.first? tag).map change
  | .element own attrib text tail children => by
    by_cases h : own = tag
    · rw [Node.modifyFirst, Node.first?, if_pos h, if_pos h, Option.map_some]
      exact Node.first?_of_tag ((hchange _).trans h)
    · rw [Node.modifyFirst, Node.first?, if_neg h, if_neg h, Node.first?, if_neg h]
      exact Node.firstIn?_modifyFirstIn tag hchange children

theorem Node.firstIn?_modifyFirstIn (tag : String) {change : Node → Node}
    (hchange : ∀ node, (change node).tag = node.tag) :
    ∀ nodes : List Node,
      Node.firstIn? tag (Node.modifyFirstIn tag change nodes) = (Node.firstIn? tag nodes).map change
  | [] => rfl
  | node :: rest => by
    have hnode := Node.first?_modifyFirst tag hchange node
    have hrest := Node.firstIn?_modifyFirstIn tag hchange rest
    rw [Node.modifyFirstIn, Node.firstIn?]
    cases h : Node.first? tag node with
    | none => rw [if_neg (by simp), Node.firstIn?, h, Option.none_or, Option.none_or, hrest]
    | some found => rw [if_pos (by simp), Node.firstIn?, hnode, h, Option.map_some, Option.some_or,
        Option.some_or, Option.map_some]

end

@[simp] theorem Node.tag_set (node : Node) (name value : String) : (node.set name value).tag = node.tag := by
  match node with
  | .element _ _ _ _ _ => rfl

@[simp] theorem Node.children_set (node : Node) (name value : String) :
    (node.set name value).children = node.children := by
  match node with
  | .element _ _ _ _ _ => rfl

section Blocks

variable {unicode : Unicode} {children : List Node} {reports : List SubTestReport}

section Positions

variable {suite : Node}

end Positions

end Blocks

end IsvValidation.Junit
