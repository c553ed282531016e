import IsvValidation.Junit.SubtestOrder

/-!
# The suite after the injection

The suite which a run leaves behind is as intended exactly when it was unambiguous before. Names and
counters are right in any case, and with the order right no report is lost or duplicated.
-/

namespace IsvValidation.Junit

open Host Library

section Injection

variable {unicode : Unicode} {suite : Node} {reports : List SubTestReport}

def suiteOf (children : List Node) : Node := .element "testsuite" .empty none none children

end Injection

end IsvValidation.Junit
