import Mathlib.Data.Rat.Floor
import IsvValidation.Storage.Mock

/-!
# The check of a topology block

`CapacityTopologyBlockAtomicAllocationCheck.run` on the output of the step: it reads the block and
its resource records, collects what it finds wrong with the flags, the counts, the records and the two
domains, and passes when it has found nothing.
-/

namespace IsvValidation.Capacity

open Config Storage

/-- A JSON object. -/
abbrev Fields := List (String × Json)

/-- `fields.get(key)`. -/
def get (fields : Fields) (key : String) : Json := (fields.lookup key).getD .null

/-! ## Python's operations on JSON values -/

/-- The value of a number; `True` and `False` are numbers. -/
def number? : Json → Option ℚ
  | .bool value => some (if value then 1 else 0)
  | .int value => some value
  | .float value => some value
  | _ => none

mutual

/-- `first == second`. -/
def same : Json → Json → Bool
  | .null, .null => true
  | .str first, .str second => first == second
  | .nonFinite first, .nonFinite second => first == second && first != "NaN"
  | .arr first, .arr second => sameList first second
  | .obj first, .obj second => first.length == second.length && sameFields first second
  | first, second => (number? first).isSome && number? first == number? second

def sameList : List Json → List Json → Bool
  | [], [] => true
  | first :: rest, second :: others => same first second && sameList rest others
  | _, _ => false

def sameFields : Fields → Fields → Bool
  | [], _ => true
  | (key, first) :: rest, others =>
    ((others.lookup key).any fun second ↦ same first second) && sameFields rest others

end

/-- Only a list and an object cannot be members of a set. -/
def hashable : Json → Bool
  | .arr _ => false
  | .obj _ => false
  | _ => true

/-- `first is second or first == second`: `json.loads` has one object for every `NaN`. -/
def sameMember : Json → Json → Bool
  | .nonFinite first, .nonFinite second => first == second
  | first, second => same first second

/-- The members of the set of these values. -/
def distinct : List Json → List Json
  | [] => []
  | value :: rest => value :: (distinct rest).filter fun other ↦ !sameMember value other

/-- `set(values)`. -/
def setOf (values : List Json) : Except PyError (List Json) :=
  match values.find? fun value ↦ !hashable value with
  | some value => .error (.typeError s!"unhashable type: '{value.typeName}'")
  | none => .ok (distinct values)

/-- How Python writes values, and reads numbers in text. -/
structure Printer extends Numerals where
  str : Json → String
  quoted : List String → String

/-- What `int(raw)` raises is told apart by whether it is caught. -/
inductive IntResult where
  | value (value : ℤ)
  | refused
  | overflow

/-- `int(raw)`. -/
def Printer.toInt (printer : Printer) : Json → IntResult
  | .bool value => .value (if value then 1 else 0)
  | .int value => .value value
  | .float value => .value (if 0 ≤ value then ⌊value⌋ else ⌈value⌉)
  | .nonFinite text => if text = "NaN" then .refused else .overflow
  | .str text =>
    match printer.int text with
    | some value => .value value
    | none => .refused
  | _ => .refused

/-! ## The check -/

def countFields : List String := ["compute", "network", "storage"]

def resourceFields : List String :=
  ["resource_id", "resource_type", "tenant_id", "topology_block_id", "performance_domain",
    "isolation_boundary"]

/-- `_is_non_empty_string`. -/
def isNonEmptyString (printer : Printer) : Json → Bool
  | .str text => printer.strip text != ""
  | _ => false

/-- `_is_non_negative_int`, with the number. -/
def nonNegativeInt? : Json → Option ℕ
  | .int (.ofNat value) => some value
  | _ => none

/-- `_resource_label`. -/
def resourceLabel (resource : Fields) : String :=
  match get resource "resource_id" with
  | .str text => if text = "" then "<unknown>" else text
  | _ => "<unknown>"

structure Subtest where
  name : String
  passed : Bool
  message : String

inductive Verdict where
  | passed (message : String)
  | failed (error : String)

/-- What a run of the check leaves. -/
structure CheckRun where
  verdict : Verdict
  subtests : List Subtest := []

def CheckRun.isPassed (result : CheckRun) : Bool :=
  match result.verdict with
  | .passed _ => true
  | .failed _ => false

/-- `resource_counts[name]`. -/
def resourceCount (resources : List Fields) (name : String) : ℕ :=
  resources.countP fun resource ↦ same (get resource "resource_type") (.str name)

/-- What `_validate_counts` finds wrong with one kind of resource. -/
def countFailures (requested allocated : Fields) (resources : List Fields) (name : String) :
    List String :=
  match nonNegativeInt? ((requested.lookup name).getD (.int 0)) with
  | none => [s!"requested {name} must be a non-negative integer"]
  | some req =>
    match nonNegativeInt? ((allocated.lookup name).getD (.int 0)) with
    | none => [s!"allocated {name} must be a non-negative integer"]
    | some got =>
      (if got ≠ req then [s!"allocated {name} {got} != requested {name} {req}"] else []) ++
        if got ≠ resourceCount resources name then
          [s!"allocated {name} {got} != resource records {resourceCount resources name}"]
        else []

/-- `_validate_counts`: it returns whether it has found nothing wrong. -/
def validateCounts (requested allocated : Json) (resources : List Fields) : List String :=
  match requested, allocated with
  | .obj requested, .obj allocated => countFields.flatMap (countFailures requested allocated resources)
  | _, _ => ["topology_block.requested and topology_block.allocated must be objects"]

/-- What `_validate_resource_membership` finds wrong with one record. -/
def recordFailures (printer : Printer) (blockId tenantId : Json) (resource : Fields) :
    List String :=
  let label := resourceLabel resource
  let tenant := get resource "tenant_id"
  let block := get resource "topology_block_id"
  (resourceFields.filter fun field ↦ !isNonEmptyString printer (get resource field)).map
      (fun field ↦ s!"{label} missing non-empty {field}") ++
    (if same tenant tenantId then []
      else [s!"{label} tenant_id {printer.str tenant} != {printer.str tenantId}"]) ++
    if same block blockId then []
    else [s!"{label} topology_block_id {printer.str block} != {printer.str blockId}"]

/-- `_validate_resource_membership`: it returns whether it has found nothing wrong. -/
def validateResourceMembership (printer : Printer) (resources : List Fields)
    (blockId tenantId : Json) : List String :=
  resources.flatMap (recordFailures printer blockId tenantId)

/-- `_parse_positive_int`: what it finds wrong, or the number; an overflow is not caught. -/
def parsePositiveInt (printer : Printer) (key : String) (raw : Json) :
    Except PyError (Except String ℤ) :=
  match raw with
  | .bool _ => .ok (.error s!"`{key}` must be an integer, got bool: {printer.str raw}")
  | _ =>
    match printer.toInt raw with
    | .overflow => .error (.other "OverflowError" "cannot convert float infinity to integer")
    | .refused => .ok (.error s!"`{key}` must be an integer, got {raw.typeName}: {printer.str raw}")
    | .value value =>
      if value < 1 then .ok (.error s!"{key} must be >= 1 (got {value})") else .ok (.ok value)

/-- The records, when they are a list of objects. -/
def records? : Json → Option (List Fields)
  | .arr items =>
    items.mapM fun item ↦
      match item with
      | .obj fields => some fields
      | _ => none
  | _ => none

def isTrue : Json → Bool
  | .bool value => value
  | _ => false

def isFalse : Json → Bool
  | .bool value => !value
  | _ => false

def blockKeys : List String := ["block_id", "tenant_id", "reservation_id"]

/-- What the check finds wrong with a block and its records, with the outcomes it reports. -/
def judge (printer : Printer) (block : Fields) (resources : List Fields) :
    Except PyError (List String × List Subtest) := do
  let idFailures := (blockKeys.filter fun key ↦ !isNonEmptyString printer (get block key)).map
    fun key ↦ s!"topology_block.{key} must be a non-empty string"
  let atomicOk := isTrue (get block "allocated_as_unit") && isFalse (get block "partial_allocation")
  let atomicFailures := if atomicOk then [] else ["topology block reported partial allocation"]
  let counts := validateCounts (get block "requested") (get block "allocated") resources
  let membership :=
    validateResourceMembership printer resources (get block "block_id") (get block "tenant_id")
  let performanceDomains ← setOf (resources.map (get · "performance_domain"))
  let performanceOk := isTrue (get block "homogeneous") && performanceDomains.length == 1
  let performance :=
    (if isTrue (get block "homogeneous") then [] else ["topology_block.homogeneous must be true"]) ++
      if performanceDomains.length == 1 then []
      else
        ["multiple performance domains in topology block: " ++
          printer.quoted ((performanceDomains.map printer.str).mergeSort (· ≤ ·))]
  let isolationBoundaries ← setOf (resources.map (get · "isolation_boundary"))
  let isolationOk := isTrue (get block "isolation_enforced") && isolationBoundaries.length == 1
  let isolation :=
    (if isTrue (get block "isolation_enforced") then []
      else ["topology_block.isolation_enforced must be true"]) ++
      if isolationBoundaries.length == 1 then []
      else
        ["multiple isolation boundaries in topology block: " ++
          printer.quoted ((isolationBoundaries.map printer.str).mergeSort (· ≤ ·))]
  return (idFailures ++ atomicFailures ++ counts ++ membership ++ performance ++ isolation,
    [⟨"atomic_allocation", atomicOk,
        if atomicOk then "block allocated as one unit" else "block reported partial allocation"⟩,
      ⟨"requested_counts", counts.isEmpty,
        if counts.isEmpty then "allocated counts match requested counts and resource records"
        else "allocated counts do not match requested counts or resource records"⟩,
      ⟨"resource_membership", membership.isEmpty,
        if membership.isEmpty then "all resources belong to the same tenant and topology block"
        else "resources span multiple tenants or topology blocks"⟩,
      ⟨"performance_homogeneity", performanceOk,
        if performanceOk then "one performance domain across resources"
        else "multiple performance domains across resources"⟩,
      ⟨"isolation_boundary", isolationOk,
        if isolationOk then "one isolation boundary across resources"
        else "multiple isolation boundaries across resources"⟩])

/-- The configuration of the check. -/
structure CheckConfig where
  stepOutput : Json := .obj []
  minResources : Json := .int 1

/-- `run`. -/
def run (printer : Printer) (config : CheckConfig) : Except PyError CheckRun := do
  match config.stepOutput with
  | .obj stepOutput =>
    if !(get stepOutput "success").truthy then
      let error := (stepOutput.lookup "error").getD (.str "Unknown error")
      return ⟨.failed s!"Capacity topology block step failed: {printer.str error}", []⟩
    match get stepOutput "topology_block" with
    | .obj block =>
      match ← parsePositiveInt printer "min_resources" config.minResources with
      | .error error => return ⟨.failed error, []⟩
      | .ok minResources =>
        match records? (get block "resources") with
        | none => return ⟨.failed "topology_block.resources must be a list of objects", []⟩
        | some resources =>
          if (resources.length : ℤ) < minResources then
            return ⟨.failed (s!"Expected at least {minResources} topology block resource(s), got " ++
              s!"{resources.length}"), []⟩
          let (failures, subtests) ← judge printer block resources
          if failures.isEmpty then
            let blockId := printer.str (get block "block_id")
            let tenantId := printer.str (get block "tenant_id")
            return ⟨.passed (s!"Validated atomic topology block {blockId} for tenant {tenantId} with " ++
              s!"{resources.length} resource(s)"), subtests⟩
          return ⟨.failed ("Capacity topology block invariants violated: " ++
            "; ".intercalate failures), subtests⟩
    | _ => return ⟨.failed "Capacity step output is missing the 'topology_block' object", []⟩
  | _ => return ⟨.failed "step_output must be an object", []⟩

end IsvValidation.Capacity
