import Mathlib.Tactic.Set
import IsvValidation.Library.OrderedMap
import IsvValidation.Validation.Report

/-!
# Whether all expected hardware is ingested

The step lists the machines of the manifest, each linked to a discovered machine or not, and reports its
own counts and a list of what is missing. The check reads the count and that list, and looks into the
machines which are linked. It leaves out the others, because the list names them where the step is right.
-/

namespace IsvValidation.Nico.Ingestion

open Library Validation

/-! ## The output of the step -/

/-- A record of the step, with the fields the check reads; a field is absent, null or a text. -/
structure Machine where
  machineId : Option String := none
  expectedMachineId : Option String := none
  chassisSerial : Option String := none
  status : Option (Option String) := none
  health : Option (Option String) := none
  deriving DecidableEq

/-- A field which is not empty. -/
def filled (field : Option String) : Option String := field.filter (· ≠ "")

/-- `_machine_label`. -/
def machineLabel (machine : Machine) : String :=
  (((filled machine.machineId).or (filled machine.expectedMachineId)).or
    (filled machine.chassisSerial)).getD "unknown"

/-- A record which names a discovered machine. -/
def Machine.linked (machine : Machine) : Bool := (filled machine.machineId).isSome

/-- What the step reports; fields it leaves out have the defaults of the check. -/
structure StepOutput where
  success : Bool := false
  error : Option String := none
  expectedCount : ℤ := 0
  matchedCount : ℤ := 0
  missing : List Machine := []
  extra : List Machine := []
  machines : List Machine := []

structure CheckConfig where
  stepOutput : StepOutput := {}
  minMachines : ℤ := 1
  expectedStatus : List (Option String) := [some "Ready", some "InUse"]
  requireHealthy : Bool := true

/-! ## The check -/

/-- How Python writes a text or null. -/
def shown (field : Option String) : String := field.getD "None"

def statusOf (machine : Machine) : Option String := machine.status.getD (some "Unknown")

def healthOf (machine : Machine) : Option String := machine.health.getD (some "unknown")

/-- The report, and the two lists of machines which are not in order. -/
structure Sweep where
  report : Report
  badStatusMachines : List String := []
  unhealthyMachines : List String := []

variable (check : CheckConfig)

/-- How Python writes the acceptable statuses. -/
def expectedStatusText (statuses : List (Option String)) : String :=
  "[" ++ ", ".intercalate (statuses.map fun status ↦ (status.map fun name ↦ s!"'{name}'").getD "None") ++ "]"

/-- The status of a linked machine. -/
def checkStatus (sweep : Sweep) (machine : Machine) : Sweep :=
  let label := machineLabel machine
  let status := statusOf machine
  let serial := (filled machine.chassisSerial).getD "n/a"
  if !check.expectedStatus.contains status then
    { sweep with
      badStatusMachines := sweep.badStatusMachines ++ [s!"{label} (serial={serial}, status={shown status})"]
      report := sweep.report.reportSubtest s!"machine_status_{label}" false
        s!"Machine {label} status is {shown status}, expected one of {expectedStatusText check.expectedStatus}" }
  else
    { sweep with
      report := sweep.report.reportSubtest s!"machine_status_{label}" true
        s!"Machine {label} status is {shown status}" }

/-- The health of a linked machine, where it is required. -/
def checkHealth (sweep : Sweep) (machine : Machine) : Sweep :=
  let label := machineLabel machine
  let health := healthOf machine
  let serial := (filled machine.chassisSerial).getD "n/a"
  if check.requireHealthy then
    if health ≠ some "healthy" then
      { sweep with
        unhealthyMachines := sweep.unhealthyMachines ++ [s!"{label} (serial={serial}, health={shown health})"]
        report := sweep.report.reportSubtest s!"machine_health_{label}" false
          s!"Machine {label} health is {shown health}, expected healthy" }
    else
      { sweep with
        report := sweep.report.reportSubtest s!"machine_health_{label}" true
          s!"Machine {label} health is healthy" }
  else sweep

/-- One round of the loop; a machine which is not linked is passed over. -/
def checkMachine (sweep : Sweep) (machine : Machine) : Sweep :=
  if !machine.linked then sweep else checkHealth check (checkStatus check sweep machine) machine

/-- The list of missing machines, as the texts show it. -/
def missingIds (missing : List Machine) : String := ", ".intercalate (missing.map machineLabel)

/-- What is reported before the machines. -/
def reportLists (output : StepOutput) : Report :=
  let report : Report := {}
  let report := if output.missing ≠ [] then
      report.reportSubtest "missing_machines" false
        s!"{output.missing.length} expected machine(s) not ingested: {missingIds output.missing}"
    else report
  if output.extra ≠ [] then
    report.reportSubtest "extra_machines" true (s!"Info: {output.extra.length} additional machine(s) found " ++
      s!"beyond manifest: {missingIds output.extra}")
  else report

/-- What the final error lists. -/
def issues (output : StepOutput) (sweep : Sweep) : List String :=
  let badStatus := ", ".intercalate sweep.badStatusMachines
  let unhealthy := ", ".intercalate sweep.unhealthyMachines
  (if output.missing ≠ [] then [s!"{output.missing.length} missing [{missingIds output.missing}]"] else []) ++
  (if sweep.badStatusMachines ≠ [] then [s!"{sweep.badStatusMachines.length} bad status [{badStatus}]"] else []) ++
  (if sweep.unhealthyMachines ≠ [] then [s!"{sweep.unhealthyMachines.length} unhealthy [{unhealthy}]"] else [])

/-- `HardwareIngestionCheck.run`. -/
def run : Report :=
  let output := check.stepOutput
  let stepError := output.error.getD "Unknown error"
  if !output.success then Report.setFailed {} s!"Ingestion check step failed: {stepError}"
  else if output.expectedCount < check.minMachines then
    Report.setFailed {} s!"Expected at least {check.minMachines} machines in manifest, got {output.expectedCount}"
  else
    let sweep := output.machines.foldl (checkMachine check) { report := reportLists output }
    if output.missing ≠ [] ∨ sweep.badStatusMachines ≠ [] ∨
        (check.requireHealthy ∧ sweep.unhealthyMachines ≠ []) then
      let listed := "; ".intercalate (issues output sweep)
      sweep.report.setFailed (s!"Hardware ingestion issues: {listed}. " ++
        s!"{output.matchedCount}/{output.expectedCount} machines matched.")
    else sweep.report.setPassed s!"All {output.matchedCount} expected machines ingested and healthy"

/-! ## What passes -/

/-- A machine in an acceptable state. -/
structure InOrder (machine : Machine) : Prop where
  status : statusOf machine ∈ check.expectedStatus
  health : check.requireHealthy = true → healthOf machine = some "healthy"

/-- Lists which do not make the check fail. -/
structure Sweep.Clean (sweep : Sweep) : Prop where
  badStatus : sweep.badStatusMachines = []
  unhealthy : check.requireHealthy = true → sweep.unhealthyMachines = []

variable {check} {sweep : Sweep} {machine : Machine}

theorem clean_checkStatus :
    (checkStatus check sweep machine).Clean check ↔ sweep.Clean check ∧ statusOf machine ∈ check.expectedStatus := by
  rw [checkStatus]
  by_cases hstatus : statusOf machine ∈ check.expectedStatus
  · rw [if_neg (by simpa using hstatus)]
    exact ⟨fun h ↦ ⟨⟨h.badStatus, h.unhealthy⟩, hstatus⟩, fun h ↦ ⟨h.1.badStatus, h.1.unhealthy⟩⟩
  · rw [if_pos (by simpa using hstatus)]
    exact ⟨fun h ↦ absurd h.badStatus (by simp), fun h ↦ absurd h.2 hstatus⟩

theorem clean_checkHealth : (checkHealth check sweep machine).Clean check ↔
    sweep.Clean check ∧ (check.requireHealthy = true → healthOf machine = some "healthy") := by
  rw [checkHealth]
  by_cases hrequire : check.requireHealthy = true
  · rw [if_pos hrequire]
    by_cases hhealth : healthOf machine = some "healthy"
    · rw [if_neg (not_not.mpr hhealth)]
      exact ⟨fun h ↦ ⟨⟨h.badStatus, h.unhealthy⟩, fun _ ↦ hhealth⟩, fun h ↦ ⟨h.1.badStatus, h.1.unhealthy⟩⟩
    · rw [if_pos hhealth]
      exact ⟨fun h ↦ absurd (h.unhealthy hrequire) (by simp), fun h ↦ absurd (h.2 hrequire) hhealth⟩
  · rw [if_neg hrequire]
    exact ⟨fun h ↦ ⟨h, fun hyes ↦ absurd hyes hrequire⟩, And.left⟩

/-- One round notes a machine which is linked and not in order, and no other. -/
theorem clean_checkMachine : (checkMachine check sweep machine).Clean check ↔
    sweep.Clean check ∧ (machine.linked = true → InOrder check machine) := by
  rw [checkMachine]
  cases machine.linked with
  | false => simp
  | true =>
    simp only [Bool.not_true, Bool.false_eq_true, if_false]
    rw [clean_checkHealth, clean_checkStatus]
    exact ⟨fun h ↦ ⟨h.1.1, fun _ ↦ ⟨h.1.2, h.2⟩⟩, fun h ↦ ⟨⟨h.1, (h.2 trivial).status⟩, (h.2 trivial).health⟩⟩

theorem clean_foldl (machines : List Machine) : (machines.foldl (checkMachine check) sweep).Clean check ↔
    sweep.Clean check ∧ ∀ machine ∈ machines, machine.linked = true → InOrder check machine := by
  induction machines generalizing sweep with
  | nil => simp
  | cons machine rest ih => rw [List.foldl_cons, ih, clean_checkMachine, List.forall_mem_cons, and_assoc]

variable (check)

/-- What the check asks of the output: the fields it reads, each for itself. -/
structure Accepts : Prop where
  success : check.stepOutput.success = true
  enough : check.minMachines ≤ check.stepOutput.expectedCount
  noneMissing : check.stepOutput.missing = []
  inOrder : ∀ machine ∈ check.stepOutput.machines, machine.linked = true → InOrder check machine

/-- A check passes on what it accepts, whatever the lists say about one another. -/
theorem passed_run : (run check).passed = true ↔ Accepts check := by
  rw [run]
  by_cases hsuccess : check.stepOutput.success = true
  · rw [if_neg (by simp [hsuccess])]
    by_cases henough : check.stepOutput.expectedCount < check.minMachines
    · rw [if_pos henough]
      exact ⟨fun h ↦ absurd h (by simp), fun h ↦ absurd h.enough (Int.not_le.mpr henough)⟩
    · rw [if_neg henough]
      have hsweep := @clean_foldl check { report := reportLists check.stepOutput } check.stepOutput.machines
      set sweep := check.stepOutput.machines.foldl (checkMachine check) { report := reportLists check.stepOutput }
      constructor
      · intro h
        by_cases hbad : check.stepOutput.missing ≠ [] ∨ sweep.badStatusMachines ≠ [] ∨
            (check.requireHealthy = true ∧ sweep.unhealthyMachines ≠ [])
        · rw [if_pos hbad] at h
          cases h
        · rw [not_or, not_or, not_and, not_not, not_not, not_not] at hbad
          have hclean := hsweep.mp ⟨hbad.2.1, hbad.2.2⟩
          exact ⟨hsuccess, Int.not_lt.mp henough, hbad.1, hclean.2⟩
      · intro h
        have hclean := hsweep.mpr ⟨⟨rfl, fun _ ↦ rfl⟩, h.inOrder⟩
        rw [if_neg, Report.passed_setPassed]
        rw [not_or, not_or, not_and, not_not, not_not, not_not]
        exact ⟨h.noneMissing, hclean.badStatus, hclean.unhealthy⟩
  · rw [if_pos (by simpa using hsuccess)]
    exact ⟨fun h ↦ absurd h (by simp), fun h ↦ absurd h.success hsuccess⟩

/-! ## Hardware which is there -/

/-- The machines which are linked to a discovered machine. -/
def linkedMachines (output : StepOutput) : List Machine := output.machines.filter Machine.linked

/-- All expected hardware is ingested and in order. -/
structure Ingested : Prop where
  expected : check.stepOutput.expectedCount ≤ (linkedMachines check.stepOutput).length
  enough : check.minMachines ≤ (linkedMachines check.stepOutput).length
  inOrder : ∀ machine ∈ linkedMachines check.stepOutput, InOrder check machine
  noneMissing : check.stepOutput.missing = []
  noneUnlinked : ∀ machine ∈ check.stepOutput.machines, machine.linked = true

/-- There is a record for each expected machine, and none without a discovered machine. -/
structure Agrees (output : StepOutput) : Prop where
  records : output.expectedCount ≤ output.machines.length
  linked : ∀ machine ∈ output.machines, machine.linked = true

variable {check}

theorem ingested_of_agrees (haccepts : Accepts check) (hagrees : Agrees check.stepOutput) : Ingested check := by
  have hall : linkedMachines check.stepOutput = check.stepOutput.machines :=
    List.filter_eq_self.mpr hagrees.linked
  have hrecords := hagrees.records
  have henough := haccepts.enough
  refine ⟨by rwa [hall], ?_, ?_, haccepts.noneMissing, hagrees.linked⟩
  · rw [hall]
    omega
  · intro machine hmachine
    exact haccepts.inOrder machine (List.mem_filter.mp hmachine).1 (List.mem_filter.mp hmachine).2

variable (check)

/-- The check is right exactly where it refuses the output by one of its own tests, or the count and the
records of the step agree. -/
theorem ingested_of_passed_iff : ((run check).passed = true → Ingested check) ↔
    ¬ Accepts check ∨ Agrees check.stepOutput := by
  rw [passed_run]
  constructor
  · intro h
    by_cases haccepts : Accepts check
    · have hingested := h haccepts
      have hle : (linkedMachines check.stepOutput).length ≤ check.stepOutput.machines.length :=
        List.length_filter_le _ _
      refine .inr ⟨?_, hingested.noneUnlinked⟩
      have := hingested.expected
      omega
    · exact .inl haccepts
  · intro h haccepts
    exact ingested_of_agrees haccepts (h.resolve_left (not_not.mpr haccepts))

/-- Two machines are expected, and there is no record of either. -/
theorem passed_without_records :
    let check : CheckConfig := { stepOutput := { success := true, expectedCount := 2, matchedCount := 2 } }
    (run check).passed = true ∧ ¬ Ingested check := by
  refine ⟨rfl, fun h ↦ ?_⟩
  exact absurd h.expected (by decide)

end IsvValidation.Nico.Ingestion
