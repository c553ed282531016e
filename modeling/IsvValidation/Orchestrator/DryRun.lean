import IsvValidation.Orchestrator.Plan
import IsvValidation.Pytest.Bridge

/-!
# The dry run

`_human_readable_dry_run` renders which checks a run would skip by name, by capability or by label,
without executing anything. It decides the precedence of these causes on its own. Where it reads the
exclude block it takes a false value for an empty list; the run takes what it finds.
-/

namespace IsvValidation.Orchestrator

open Config Host Library Pytest Resolution

/-- Why the plan skips a check. -/
inductive SkipCause where
  | name
  | capability
  | missingLabel
  | excludedLabel
  deriving DecidableEq

/-- One check of the plan, with the words behind its name. -/
inductive PlanLine where
  | skip (name : String) (cause : SkipCause) (detail : String)
  | run (name detail : String)
  deriving DecidableEq

namespace PlanLine

def cause? : PlanLine → Option SkipCause
  | skip _ cause _ => some cause
  | run _ _ => none

def text : PlanLine → String
  | skip name _ detail => s!"  [SKIP] {name}: {detail}"
  | run name detail => s!"  [RUN]  {name}{detail}"

end PlanLine

/-- The rendered plan: its head, and one line for each check. -/
structure DryRunPlan where
  head : List String
  checks : List PlanLine

def DryRunPlan.text (plan : DryRunPlan) : String :=
  "\n".intercalate (plan.head ++ plan.checks.map PlanLine.text)

/-- `", ".join(sorted(members))` for a set; a member which is no string raises. -/
def joinSorted (members : List Scalar) : Except PyError String :=
  match members.mapM fun member ↦ (Value.scalar member).str? with
  | some names => .ok (", ".intercalate (sortedNames names))
  | none => .error (.typeError "expected str instance")

/-- A line of the head which is left out for an empty set. -/
def headLine (title : String) (members : List Scalar) (note : String) :
    Except PyError (List String) :=
  if members.isEmpty then .ok []
  else do
    let listed ← joinSorted members
    return [s!"  {title}: {listed}{note}"]

/-- `config_exclude.get(key) or []`. -/
def excludedOrEmpty (exclude : Items) (key : String) : Value :=
  let value := (exclude.lookup (.str key)).getD .null
  if value.truthy then value else .list []

/-- One pass of the loop over the entries. -/
def planCheck (selected : List String) (rejected rejectedTests : List Scalar)
    (capability : Option String) (entry : ValidationEntry) : PlanLine :=
  if rejectedTests.contains (.str entry.name) then .skip entry.name .name "excluded by name"
  else
    match capability.filter fun context ↦ !requirementsSatisfied entry.requires context with
    | some context =>
      let requirement := ", ".intercalate entry.requires
      .skip entry.name .capability s!"requires {requirement} (context: {context})"
    | none =>
      match sortedNames (selected.filter fun label ↦ !entry.labels.contains label) with
      | label :: labels =>
        let missing := ", ".intercalate (label :: labels)
        .skip entry.name .missingLabel s!"does not match all selected labels: {missing}"
      | [] =>
        match sortedNames (entry.labels.filter fun label ↦ rejected.contains (.str label)) with
        | label :: labels =>
          let matched := ", ".intercalate (label :: labels)
          .skip entry.name .excludedLabel s!"excluded by label: {matched}"
        | [] =>
          if entry.requires.isEmpty then .run entry.name ""
          else
            let required := ", ".intercalate entry.requires
            .run entry.name s!": requires {required}"

/-- `rejected_labels`: the labels of the command line, extended by those of the configuration. -/
def rejectedLabels (options : RunOptions) (exclude : Items) : Except PyError (List Scalar) :=
  let own := options.excludeLabels.map Scalar.str
  if options.includeLabels.isEmpty && !hasExplicitPytestSelection options.extraPytestArgs then do
    let configured ← (excludedOrEmpty exclude "labels").toSet
    return own ++ configured
  else .ok own

/-- The lines of the head which show the selection. -/
def selectionHead (selected : List String) (rejected rejectedTests : List Scalar) :
    Except PyError (List String) := do
  let labels ← headLine "Labels" (selected.map .str) " (all required)"
  let excludedLabels ← headLine "Excluded labels" rejected ""
  let excludedTests ← headLine "Excluded tests" rejectedTests ""
  return labels ++ excludedLabels ++ excludedTests

/-- `_human_readable_dry_run`. -/
def humanReadableDryRun (host : Runtime) (config : RunConfig) (options : RunOptions) :
    Except PyError DryRunPlan := do
  let tests := config.tests.getD {}
  let suiteType := match tests.capability.filter (· ≠ "") with
    | some declared => s!"platform ({declared})"
    | none => "plain"
  let context := options.capability.getD "not filtered"
  let rejected ← rejectedLabels options tests.exclude
  let rejectedTests ← (excludedOrEmpty tests.exclude "tests").toSet
  let entries := parseValidations host tests.validations
  let selection ← selectionHead options.includeLabels rejected rejectedTests
  return {
    head := ["Dry-run plan", s!"  Suite type: {suiteType}", s!"  Capability: {context}",
      s!"  Checks: {entries.length}"] ++ selection
    checks := entries.map
      (planCheck options.includeLabels rejected rejectedTests options.capability) }

/-! ## The causes in the records of a run -/

/-- The cause which the message of an excluded entry names; deselection by pytest is none. -/
def excludedCause? (name message : String) : Option SkipCause :=
  let subject := s!"validation '{name}' "
  if message = subject ++ "is excluded by name" then some .name
  else if Text.startsWith message (subject ++ "does not match all selected labels: ") then
    some .missingLabel
  else if Text.startsWith message (subject ++ "is excluded by label: ") then some .excludedLabel
  else none

/-- The cause for which resolution skipped an entry by name, capability or label. -/
def skipCause? (record : ResolvedEntry) : Option SkipCause :=
  if record.state = some .skipped then
    match record.skipReason with
    | some .capabilityRequirement => some .capability
    | some .excluded => excludedCause? record.entry.name record.message
    | _ => none
  else none

theorem startsWith_append_append (subject text start : String) :
    Text.startsWith (subject ++ text) (subject ++ start) = Text.startsWith text start := by
  unfold Text.startsWith
  rw [String.toList_append, String.toList_append, Bool.eq_iff_iff, List.isPrefixOf_iff_prefix,
    List.isPrefixOf_iff_prefix, List.prefix_append_right_inj]

theorem startsWith_append (start rest : String) : Text.startsWith (start ++ rest) start = true := by
  unfold Text.startsWith
  rw [String.toList_append, List.isPrefixOf_iff_prefix]
  exact List.prefix_append ..

section Causes

variable (entry : ValidationEntry)

theorem excludedCause?_append (name message : String) :
    excludedCause? name (s!"validation '{name}' " ++ message) =
      if message = "is excluded by name" then some .name
      else if Text.startsWith message "does not match all selected labels: " then some .missingLabel
      else if Text.startsWith message "is excluded by label: " then some .excludedLabel
      else none := by
  unfold excludedCause?
  simp only [startsWith_append_append, String.append_right_inj]

theorem skipCause?_name : skipCause? (.skip entry .excluded
    s!"validation '{entry.name}' is excluded by name") = some .name := by
  have hmessage : s!"validation '{entry.name}' is excluded by name" =
      s!"validation '{entry.name}' " ++ "is excluded by name" := by
    simp [toString, String.append_assoc]
  simp [skipCause?, ResolvedEntry.skip, hmessage, excludedCause?_append]

theorem skipCause?_missingLabel (labels : String) : skipCause? (.skip entry .excluded
    (s!"validation '{entry.name}' does not match all selected labels: " ++ labels)) =
      some .missingLabel := by
  have hmessage : s!"validation '{entry.name}' does not match all selected labels: " ++ labels =
      s!"validation '{entry.name}' " ++ ("does not match all selected labels: " ++ labels) := by
    apply String.toList_inj.mp
    simp [toString]
  have hname : "does not match all selected labels: " ++ labels ≠ "is excluded by name" := by
    intro heq
    have hstart := congrArg (fun text ↦ text.toList.head?) heq
    simp at hstart
  simp [skipCause?, ResolvedEntry.skip, hmessage, excludedCause?_append, hname, startsWith_append]

theorem skipCause?_excludedLabel (labels : String) : skipCause? (.skip entry .excluded
    (s!"validation '{entry.name}' is excluded by label: " ++ labels)) = some .excludedLabel := by
  have hmessage : s!"validation '{entry.name}' is excluded by label: " ++ labels =
      s!"validation '{entry.name}' " ++ ("is excluded by label: " ++ labels) := by
    apply String.toList_inj.mp
    simp [toString]
  have hname : "is excluded by label: " ++ labels ≠ "is excluded by name" := by
    intro heq
    have hat := congrArg (fun text ↦ text.toList[15]?) heq
    simp at hat
  have hmissing : Text.startsWith ("is excluded by label: " ++ labels)
      "does not match all selected labels: " = false := by
    simp [Text.startsWith, List.isPrefixOf]
  simp [skipCause?, ResolvedEntry.skip, hmessage, excludedCause?_append, hname, hmissing,
    startsWith_append]

theorem skipCause?_capability (message : String) :
    skipCause? (.skip entry .capabilityRequirement message) = some .capability := by
  simp [skipCause?, ResolvedEntry.skip]

/-- No other reason comes from the selection. -/
theorem skipCause?_other {reason : SkipReason} (message : String) (hexcluded : reason ≠ .excluded)
    (hcapability : reason ≠ .capabilityRequirement) :
    skipCause? (.skip entry reason message) = none := by
  cases reason <;> simp_all [skipCause?, ResolvedEntry.skip]

end Causes

/-- Entries which pytest deselected or ran were not skipped by the selection. -/
theorem skipCause?_applyPytestResults {named : List ResolvedEntry} {captured : List ValidationResult}
    {record : ResolvedEntry} (h : record ∈ applyPytestResults named captured) :
    skipCause? record = none := by
  obtain ⟨before, _, rfl⟩ := List.mem_map.mp h
  cases (resultsByName captured).get? before.entry.name with
  | none =>
    have hname : ∀ name : String, "excluded by pytest -k/-m filter" ≠
        s!"validation '{name}' " ++ "is excluded by name" := by
      intro name heq
      have hstart := congrArg (fun text ↦ text.toList.head?) heq
      simp [toString] at hstart
    simp [skipCause?, deselected, excludedCause?, Text.startsWith, List.isPrefixOf, toString]
    exact hname before.entry.name
  | some result =>
    simp only [resultToResolvedEntry]
    split_ifs <;> simp [skipCause?]

/-! ## The plan and the resolution -/

section Resolution

variable {host : Runtime} {inputs : ResolveInputs} {entry : ValidationEntry}

theorem skipCause?_resolveByStep {record : ResolvedEntry}
    (h : resolveByConfig.resolveByStep inputs entry = some record) : skipCause? record = none := by
  unfold resolveByConfig.resolveByStep at h
  split at h
  · cases h
  · split at h
    · cases h
      exact skipCause?_other entry _ (by decide) (by decide)
    · split at h
      · cases h
        exact skipCause?_other entry _ (by decide) (by decide)
      · cases h

theorem skipCause?_resolveByPhase {record : ResolvedEntry}
    (h : resolveByPhase host inputs entry = .ok record) : skipCause? record = none := by
  unfold resolveByPhase at h
  simp only at h
  split at h
  · cases h
    exact skipCause?_other entry _ (by decide) (by decide)
  · split at h
    · cases h
      rfl
    · split at h
      · cases h
        rfl
      · cases hget : inputs.stepOutputs.getItem _ with
        | error e => rw [hget] at h; cases h
        | ok output =>
          rw [hget] at h
          cases h
          rfl

theorem sortedNames_eq_nil {names : List String} : sortedNames names = [] ↔ names = [] := by
  unfold sortedNames
  rw [← List.length_eq_zero_iff, List.length_insertionSort, List.length_eq_zero_iff]
  constructor
  · intro h
    rw [List.eq_nil_iff_forall_not_mem] at h ⊢
    exact fun name hmem ↦ h name (List.mem_dedup.mpr hmem)
  · intro h
    rw [h]
    rfl

/-- The plan and the resolution of an entry of accepted shape name the same cause. -/
theorem cause?_planCheck (hshape : validateEntryShape host entry = none) {record : ResolvedEntry}
    (h : resolveEntry host inputs entry = .ok record) :
    (planCheck inputs.includeLabels inputs.excludeLabels inputs.excludeTests inputs.capability
      entry).cause? = skipCause? record := by
  have hafter : resolveByConfig host inputs entry = none → skipCause? record = none := by
    intro hconfig
    unfold resolveEntry at h
    rw [hconfig] at h
    simp only at h
    split at h
    · exact skipCause?_resolveByPhase h
    · cases hcontains : inputs.stepOutputs.contains _ with
      | error e => rw [hcontains] at h; cases h
      | ok found =>
        rw [hcontains] at h
        cases found with
        | true => exact skipCause?_resolveByPhase h
        | false =>
          cases h
          exact skipCause?_other entry _ (by decide) (by decide)
  have hdecided : ∀ found, resolveByConfig host inputs entry = some found → record = found := by
    intro found hconfig
    unfold resolveEntry at h
    rw [hconfig] at h
    cases h
    rfl
  have hstep : resolveByConfig host inputs entry = resolveByConfig.resolveByStep inputs entry →
      skipCause? record = none := by
    intro hconfig
    cases hfound : resolveByConfig.resolveByStep inputs entry with
    | none => exact hafter (hconfig.trans hfound)
    | some found =>
      rw [hdecided found (hconfig.trans hfound)]
      exact skipCause?_resolveByStep hfound
  unfold resolveByConfig at hdecided hstep
  rw [hshape] at hdecided hstep
  simp only at hdecided hstep
  unfold planCheck
  by_cases hname : inputs.excludeTests.contains (.str entry.name) = true
  · rw [if_pos hname]
    rw [hdecided _ (if_pos hname), skipCause?_name]
    rfl
  · rw [if_neg hname]
    rw [if_neg hname] at hdecided hstep
    cases hcapability : inputs.capability.filter fun context ↦
        !requirementsSatisfied entry.requires context with
    | some context =>
      rw [hcapability] at hdecided
      rw [hdecided _ rfl, skipCause?_capability]
      rfl
    | none =>
      rw [hcapability] at hdecided hstep
      simp only at hdecided hstep ⊢
      unfold resolveByConfig.resolveByLabels at hdecided hstep
      cases hmissing : sortedNames
          (inputs.includeLabels.filter fun label ↦ !entry.labels.contains label) with
      | cons label labels =>
        have hnonempty : (inputs.includeLabels.filter fun label ↦ !entry.labels.contains label) ≠
            [] := fun hnil ↦ by
          rw [sortedNames_eq_nil.mpr hnil] at hmissing
          cases hmissing
        rw [hdecided _ (if_pos hnonempty), skipCause?_missingLabel]
        rfl
      | nil =>
        have hempty := not_not.mpr (sortedNames_eq_nil.mp hmissing)
        rw [if_neg hempty] at hdecided hstep
        cases hmatched : sortedNames
            (entry.labels.filter fun label ↦ inputs.excludeLabels.contains (.str label)) with
        | cons label labels =>
          rw [hmatched] at hdecided
          rw [hdecided _ rfl, skipCause?_excludedLabel]
          rfl
        | nil =>
          rw [hmatched] at hstep
          rw [hstep rfl]
          simp only
          split <;> rfl

end Resolution

end IsvValidation.Orchestrator
