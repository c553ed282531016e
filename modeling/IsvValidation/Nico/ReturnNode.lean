import IsvValidation.Host.Text
import IsvValidation.Nico.OnlineRepair

/-!
# Returning a node for maintenance

The step gives up one instance and its machine: it deletes the instance with a health issue, waits until the
instance is gone, and then until the machine has left service. The instance cannot be brought back, so that it
must be named, and the deletion must be allowed by a second setting. What is not found is gone; any other
failure ends the step. The check reads what the step prints.
-/

namespace IsvValidation.Nico.Return

open Config Host Library Library.Program Repair

/-- Python's text of a number, and its tables of characters. -/
structure Machine where
  unicode : Unicode
  number : Json → String

/-! ## Requests -/

/-- What a run asks for. How often a loop polls within a deadline is up to the clock. -/
inductive Call where
  | resolveAuth
  | getInstance (instanceId token : String)
  | getMachine (machineId token : String)
  | deleteInstance (instanceId token : String) (issue : HealthIssue)
  | polls (seconds : ℕ)

abbrev Response : Call → Type
  | .resolveAuth => String
  | .getInstance _ _ => Json
  | .getMachine _ _ => Json
  | .deleteInstance _ _ _ => Unit
  | .polls _ => ℕ

abbrev Reply (call : Call) : Type := Except Error (Response call)

abbrev Run := Program Call Reply Error

/-- A request, whose error ends the step. -/
def ask (call : Call) : Run (Response call) := invoke call

/-! ## Fields -/

/-- What a value has to say as a field: text without the space around it, or a number. -/
def stringish (machine : Machine) : Json → String
  | .str text => machine.unicode.strip text
  | .bool value => if value then "True" else "False"
  | .int value => machine.number (.int value)
  | .float value => machine.number (.float value)
  | .nonFinite text => machine.number (.nonFinite text)
  | .null | .arr _ | .obj _ => ""

/-- `first_string`. -/
def firstString (machine : Machine) (data : Json) : List String → Except PyError String
  | [] => .ok ""
  | key :: keys => do
    let text := ((← data.get key).map (stringish machine)).getD ""
    if text = "" then firstString machine data keys else return text

/-- An error of Python, as the step shows it. -/
def raised : PyError → Error
  | .attributeError message => .other "AttributeError" message
  | .typeError message => .other "TypeError" message
  | .valueError message => .urlOrValue "ValueError" message
  | .keyError message => .other "KeyError" message
  | .osError message => .other "OSError" message
  | .keyboardInterrupt => .interrupt "KeyboardInterrupt"
  | .other name message => .other name message

/-- `first_string`, within the step. -/
def fieldOf (machine : Machine) (data : Json) (key : String) : Except Error String :=
  (firstString machine data [key]).mapError raised

/-! ## The contract -/

/-- The `operation` of the contract. -/
structure Operation where
  requested : Bool := false
  accepted : Bool := false
  instanceDeleted : Bool := false
  machineQuarantined : Bool := false
  instanceId : String
  machineId : Option String := none
  message : Option String := none
  deriving DecidableEq

structure Result where
  success : Bool := true
  siteId : String
  operation : Operation
  skipReason : Option String := none
  errorType : Option String := none
  error : Option String := none
  deriving DecidableEq

/-- An entry of the contract which may be absent. -/
def entry (key : String) (value : Option String) : List (String × Json) :=
  (value.map fun text ↦ (key, Json.str text)).toList

def Operation.toJson (operation : Operation) : Json :=
  .obj ([("requested", .bool operation.requested), ("accepted", .bool operation.accepted),
    ("instance_deleted", .bool operation.instanceDeleted),
    ("machine_quarantined", .bool operation.machineQuarantined),
    ("instance_id", .str operation.instanceId)] ++ entry "machine_id" operation.machineId ++
    entry "message" operation.message)

/-- What the step prints. -/
def Result.toJson (result : Result) : Json :=
  .obj ([("success", .bool result.success), ("platform", .str "nico"), ("site_id", .str result.siteId),
    ("operation", result.operation.toJson)] ++
    (result.skipReason.map fun reason ↦ [("skipped", Json.bool true), ("skip_reason", .str reason)]).getD [] ++
    entry "error_type" result.errorType ++ entry "error" result.error)

structure Args where
  siteId : String
  instanceId : String := ""
  /-- The value of `NICO_ALLOW_RELEASE_FOR_REPAIR`. -/
  allow : Option String := none

/-! ## The step -/

def quarantinedStatuses : List String := ["Repairing", "Error", "Maintenance", "Quarantined", "Unavailable"]

def allowEnv : String := "NICO_ALLOW_RELEASE_FOR_REPAIR"

def pollDeadlineSeconds : ℕ := 300

def returnHealthIssue : HealthIssue where
  category := "Hardware"
  summary := "Validation suite node return for maintenance (BFX01-02)"
  details := "Reported by the NVIDIA AI Cloud Validation Suite to verify that a tenant can return a node " ++
    "to the provider for maintenance. The instance was relinquished deliberately as part of the " ++
    "test; the machine should be quarantined for repair rather than returned to the pool."

/-- `_instance`. -/
def instanceOf (instanceId token : String) : Run Json := do
  let fetched ← (ask (.getInstance instanceId token)).attempt
  match fetched with
  | .ok data => return data
  | .error (.http 404 _) => return .obj []
  | .error error => .raise error

/-- `_machine_status`. -/
def machineStatus (machine : Machine) (machineId token : String) : Run String := do
  let data ← ask (.getMachine machineId token)
  .ofExcept (fieldOf machine data "status")

/-- The loop of `_await_deletion`, when the clock allows a number of further rounds. -/
def pollDeletion (instanceId token : String) : ℕ → Run Bool
  | 0 => do
    let data ← instanceOf instanceId token
    return !data.truthy
  | rounds + 1 => do
    let data ← instanceOf instanceId token
    if data.truthy then pollDeletion instanceId token rounds else return true

/-- `_await_deletion`. -/
def awaitDeletion (instanceId token : String) : Run Bool := do
  let rounds ← ask (.polls pollDeadlineSeconds)
  pollDeletion instanceId token rounds

/-- The loop of `_await_quarantine`. -/
def pollQuarantine (machine : Machine) (machineId token : String) : ℕ → Run (Bool × String)
  | 0 => do
    let status ← machineStatus machine machineId token
    return (quarantinedStatuses.contains status, status)
  | rounds + 1 => do
    let status ← machineStatus machine machineId token
    if quarantinedStatuses.contains status then return (true, status)
    else pollQuarantine machine machineId token rounds

/-- `_await_quarantine`. -/
def awaitQuarantine (machine : Machine) (machineId token : String) : Run (Bool × String) := do
  let rounds ← ask (.polls pollDeadlineSeconds)
  pollQuarantine machine machineId token rounds

/-- `_confirmations`; there is no reason where the deletion is allowed. -/
def confirmations (args : Args) : Option String :=
  if args.instanceId = "" then
    some ("No instance named. This step deletes a tenant instance and cannot undo it, so it " ++
      "never discovers a target; name the instance you intend to destroy with --instance-id " ++
      s!"<uuid> (NICO_INSTANCE_ID via the provider config), and set {allowEnv}=1")
  else if args.allow ≠ some "1" then
    some (s!"Would delete instance {args.instanceId} and return its machine for repair, but " ++
      s!"{allowEnv} is not set. Naming the instance is only the first of two confirmations " ++
      "required for an irreversible delete")
  else none

/-- How the `try` block ends, with the report so far. -/
structure Stage where
  result : Result
  error : Option Error := none

section Step

variable (machine : Machine) (args : Args)

def blankResult : Result := { siteId := args.siteId, operation := { instanceId := args.instanceId } }

/-- After the instance is gone. -/
def observeQuarantine (result : Result) (machineId token : String) : Run Stage := do
  let observed ← (awaitQuarantine machine machineId token).attempt
  match observed with
  | .error error => return { result, error := some error }
  | .ok (true, _) => return { result := { result with operation := { result.operation with
      machineQuarantined := true } } }
  | .ok (false, status) =>
    let shown := if status = "" then "an unknown state" else status
    let message := s!"Machine {machineId} was released with a health issue but reported " ++
      s!"{shown} rather than leaving service; a node returned for " ++
      "maintenance must not go straight back into the allocatable pool"
    return { result := { result with
      success := false
      operation := { result.operation with message := some message }
      error := some message } }

/-- After the deletion was accepted. -/
def observeDeletion (result : Result) (machineId token : String) : Run Stage := do
  let operation := { result.operation with requested := true, accepted := true }
  let observed ← (awaitDeletion args.instanceId token).attempt
  match observed with
  | .error error => return { result := { result with operation }, error := some error }
  | .ok false =>
    let message := s!"NICo accepted the release but instance {args.instanceId} still existed after " ++
      s!"{pollDeadlineSeconds}s"
    return { result := { result with
      success := false
      operation := { operation with message := some message }
      error := some message } }
  | .ok true =>
    observeQuarantine machine { result with operation := { operation with instanceDeleted := true } } machineId token

/-- With the instance at hand. -/
def relinquish (result : Result) (data : Json) (token : String) : Run Stage :=
  match fieldOf machine data "machineId" with
  | .error error => return { result, error := some error }
  | .ok machineId =>
    let result := { result with operation := { result.operation with machineId := some machineId } }
    if machineId = "" then
      return { result := { result with
        success := false
        error := some (s!"Instance {args.instanceId} reports no machineId, so the machine's fate after the " ++
          "delete could not be observed; refusing to destroy it blind") } }
    else do
      let deleted ← (ask (.deleteInstance args.instanceId token returnHealthIssue)).attempt
      match deleted with
      | .error error => return { result, error := some error }
      | .ok _ => observeDeletion machine args result machineId token

/-- The `try` block. -/
def attemptReturn : Run Stage := do
  let result := blankResult args
  let minted ← (ask .resolveAuth).attempt
  match minted with
  | .error error => return { result, error := some error }
  | .ok token =>
    let fetched ← (instanceOf args.instanceId token).attempt
    match fetched with
    | .error error => return { result, error := some error }
    | .ok data =>
      if data.truthy then relinquish machine args result data token
      else return { result := { result with
        skipReason := some s!"Instance {args.instanceId} was not found at the site; nothing to return" } }

/-- The report after an exception. -/
def failedResult (result : Result) : Error → Result
  | .auth text => { result with success := false, errorType := some "auth", error := some text }
  | .interrupt _ => result
  | error => { result with success := false, error := some error.shown }

/-- `main`; the run ends with its report, or with an exception and none. -/
def main : Run Result :=
  match confirmations args with
  | some reason => return { blankResult args with skipReason := some reason }
  | none => do
    let stage ← attemptReturn machine args
    match stage.error with
    | none => return stage.result
    | some error =>
      if error.isException then return failedResult stage.result error else .raise error

end Step

/-! ## The check -/

inductive Verdict where
  | passed (message : String)
  | failed (error : Json)
  | skipped (reason : Json)

def unknownLabel : String := "unknown"

/-- `_record_label`. -/
def recordLabel (machine : Machine) (record : Json) : List String → Except PyError String
  | [] => .ok unknownLabel
  | key :: keys => do
    match ← record.get key with
    | some (.str text) =>
      if machine.unicode.strip text = "" then recordLabel machine record keys
      else return machine.unicode.strip text
    | _ => recordLabel machine record keys

/-- `value is True`. -/
def isTrue : Json → Bool
  | .bool value => value
  | _ => false

/-- `value or default`. -/
def orText (value : Option Json) (default : String) : Json := (value.filter Json.truthy).getD (.str default)

/-- `ReturnNodeMaintenanceCheck.run`, on the output of the step. -/
def check (machine : Machine) (output : Json) : Except PyError Verdict := do
  if (← output.get "skipped").any isTrue then
    return .skipped (orText (← output.get "skip_reason")
      "Break-fix step skipped (not configured on this platform)")
  if !(← output.get "success").any Json.truthy then
    return .failed (orText (← output.get "error") "Break-fix step failed")
  let operation := ((← output.get "operation").filter Json.truthy).getD (.obj [])
  let message ← operation.get "message"
  if !(← operation.get "instance_deleted").any Json.truthy then
    return .failed (orText message "Instance was not deleted, so the node was not returned")
  if !(← operation.get "machine_quarantined").any Json.truthy then
    return .failed (orText message ("Node was returned but went back into the allocatable pool instead of " ++
      "being held for repair"))
  let label ← recordLabel machine operation ["machine_id", "node_id"]
  if label = unknownLabel then
    return .failed (.str ("Operation reported success without identifying what it acted on " ++
      "(expected one of: machine_id, node_id)"))
  return .passed s!"Node {label} returned for maintenance"

/-- The check passes. -/
def Passes (machine : Machine) (output : Json) : Prop := ∃ message, check machine output = .ok (.passed message)

end IsvValidation.Nico.Return
