/-!
# The report of a check

What the methods of `BaseValidation` leave on a check: whether it passed, its texts, and the subtests in
the order in which they were reported. A subtest does not change the result of the check.
-/

namespace IsvValidation.Validation

/-- One `report_subtest`; what was skipped did not pass. -/
structure Subtest where
  name : String
  passed : Bool
  message : String := ""
  skipped : Bool := false
  deriving DecidableEq

structure Report where
  passed : Bool := false
  output : String := ""
  error : String := ""
  subtests : List Subtest := []
  deriving DecidableEq

namespace Report

def setPassed (report : Report) (message : String := "") : Report :=
  { report with passed := true, output := if message = "" then report.output else message }

def setFailed (report : Report) (error : String) : Report := { report with passed := false, error }

def reportSubtest (report : Report) (name : String) (passed : Bool) (message : String := "")
    (skipped : Bool := false) : Report :=
  { report with subtests := report.subtests ++ [⟨name, if skipped then false else passed, message, skipped⟩] }

variable (report : Report) (name message : String) (passed skipped : Bool)

@[simp] theorem passed_setPassed : (report.setPassed message).passed = true := rfl

@[simp] theorem passed_setFailed : (report.setFailed message).passed = false := rfl

@[simp] theorem passed_reportSubtest :
    (report.reportSubtest name passed message skipped).passed = report.passed := rfl

end Report

end IsvValidation.Validation
