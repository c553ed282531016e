import IsvValidation.Library.Execution

/-!
# Reporting a node for repair

The step finds a machine whose instance is ready, puts it into online repair, waits until the instance is in
repair, and takes it out again. A request which fails may have been carried out, so that the node is taken
out of repair wherever the request to enter it was not refused. What is waited for is a status which is not
the one of repair.
-/

namespace IsvValidation.Nico.Repair

open Library Library.Program

/-! ## Requests -/

/-- What a request raises: an authentication error, an HTTP error, another `URLError` or `ValueError`, any
other exception, or one which is no `Exception`. -/
inductive Error where
  | auth (text : String)
  | http (code : ℕ) (text : String)
  | urlOrValue (type text : String)
  | other (type text : String)
  | interrupt (type : String)
  deriving DecidableEq

namespace Error

def typeName : Error → String
  | auth _ => "NicoAuthError"
  | http _ _ => "HTTPError"
  | urlOrValue type _ => type
  | other type _ => type
  | interrupt type => type

def text : Error → String
  | auth text => text
  | http code text => s!"HTTP Error {code}: {text}"
  | urlOrValue _ text => text
  | other _ text => text
  | interrupt _ => ""

/-- Whether `except Exception` catches it. -/
def isException : Error → Bool
  | interrupt _ => false
  | _ => true

def shown (error : Error) : String := s!"{error.typeName}: {error.text}"

end Error

structure HealthIssue where
  category : String
  summary : String
  details : String
  deriving DecidableEq

/-- The body of an update of a machine. -/
structure MachineUpdate where
  onlineRepairEnabled : Bool
  allowAutoInstanceDeletionOnFailure : Option Bool := none
  acknowledgments : List (String × Bool) := []
  healthIssue : Option HealthIssue := none
  deriving DecidableEq

structure Machine where
  id : Option String := none
  instanceId : Option String := none
  deriving DecidableEq

/-- What a run asks for. How often a loop polls within a deadline is up to the clock. -/
inductive Call where
  | resolveAuth
  | listMachines (token : String)
  | instanceStatus (instanceId token : String)
  | patchMachine (machineId token : String) (body : MachineUpdate)
  | deleteHealthReport (machineId source token : String)
  | polls (seconds : ℕ)

/-- A status is stripped, and empty where it is absent. -/
abbrev Response : Call → Type
  | .resolveAuth => String
  | .listMachines _ => List Machine
  | .instanceStatus _ _ => String
  | .patchMachine _ _ _ => Unit
  | .deleteHealthReport _ _ _ => Unit
  | .polls _ => ℕ

abbrev Reply (call : Call) : Type := Except Error (Response call)

abbrev Run := Program Call Reply Error

/-- A request, whose error ends the run. -/
def ask (call : Call) : Run (Response call) := invoke call

/-! ## Reports -/

/-- The `operation` of the contract. -/
structure Operation where
  requested : Bool := false
  repairStateObserved : Bool := false
  restored : Bool := false
  nodeId : Option String := none
  message : Option String := none
  deriving DecidableEq

/-- The JSON contract of the step. -/
structure Result where
  success : Bool := false
  siteId : String
  operation : Operation := {}
  skipped : Bool := false
  skipReason : Option String := none
  errorType : Option String := none
  error : Option String := none
  cleanupSkipped : Bool := false
  cleanupErrors : List String := []
  deriving DecidableEq

structure Args where
  siteId : String
  machineId : String := ""
  skipRestore : Bool := false
  /-- The value of `NICO_ALLOW_ONLINE_REPAIR`. -/
  autoSelect : Option String := none

/-! ## Entering and leaving -/

def repairStatus : String := "Repairing"

def readyStatus : String := "Ready"

def onlineRepairOverrideSource : String := "request-online-repair"

def pollDeadlineSeconds : ℕ := 300

def fallbackPollDeadlineSeconds : ℕ := 90

def nodeHealthIssue : HealthIssue where
  category := "Hardware"
  summary := "Validation suite node repair report (BFX01-06)"
  details := "Reported by the NVIDIA AI Cloud Validation Suite to verify that a tenant can flag a node as " ++
    "needing repair and have the provider move it into a repair state. No physical fault is implied and no " ++
    "repair action is expected; online repair is cleared again immediately."

/-- `_enter_body`. -/
def enterBody : MachineUpdate where
  onlineRepairEnabled := true
  allowAutoInstanceDeletionOnFailure := some false
  acknowledgments := [("acceptDataCorruptionRisk", true), ("acceptRepairTeamAccess", true),
    ("acceptInstanceDeletionRisk", true)]
  healthIssue := some nodeHealthIssue

/-- `_exit_body`. -/
def exitBody : MachineUpdate where
  onlineRepairEnabled := false

/-- An error reply by which the server refuses a request. -/
def Error.Refuses : Error → Bool
  | .http code _ => 400 ≤ code ∧ code < 500
  | _ => false

/-- `_enter_may_have_applied`. -/
def enterMayHaveApplied (error : Error) : Bool := !error.Refuses

/-- The loop of `_await_status`, when the clock allows a number of further rounds. -/
def pollStatus (instanceId token target : String) (leaving : Bool) : ℕ → Run String
  | 0 => ask (.instanceStatus instanceId token)
  | rounds + 1 => do
    let status ← ask (.instanceStatus instanceId token)
    let reached := if leaving then status ≠ target else status = target
    if reached then return status else pollStatus instanceId token target leaving rounds

/-- `_await_status`. -/
def awaitStatus (instanceId token target : String) (leaving : Bool) (deadlineSeconds : ℕ) : Run String := do
  let rounds ← ask (.polls deadlineSeconds)
  pollStatus instanceId token target leaving rounds

/-- `_attempt_exit`; there is no detail where the node left repair. -/
def attemptExit (instanceId token : String) (apply : Run Unit) (what : String) (deadlineSeconds : ℕ) :
    Run (Option String) := do
  let attempted ← (do
    apply
    awaitStatus instanceId token repairStatus true deadlineSeconds).attempt
  match attempted with
  | .ok status =>
    if status ≠ repairStatus then return none
    else return some s!"instance stayed in {repairStatus} after {what}"
  | .error error => if error.isException then return some error.shown else .raise error

/-- `delete_if_present`: what is not found is gone. -/
def deleteIfPresent (machineId source token : String) : Run Unit := do
  let deleted ← (ask (.deleteHealthReport machineId source token)).attempt
  match deleted with
  | .ok _ => return
  | .error (.http 404 _) => return
  | .error error => .raise error

/-- What `_restore` returns. -/
structure Outcome where
  restored : Bool
  warning : String := ""
  errors : List String := []

def restoreWith (machineId instanceId token : String) : Run Outcome := do
  let stayed ← attemptExit instanceId token (ask (.patchMachine machineId token exitBody))
    "clearing online repair" pollDeadlineSeconds
  match stayed with
  | none => return { restored := true }
  | some detail =>
    let fallback ← attemptExit instanceId token (deleteIfPresent machineId onlineRepairOverrideSource token)
      s!"removing the {onlineRepairOverrideSource} override" fallbackPollDeadlineSeconds
    match fallback with
    | none => return {
        restored := true
        warning := s!"Clearing online repair did not take effect ({detail}); removed the override directly" }
    | some fallbackDetail => return { restored := false, errors := [detail, fallbackDetail] }

/-- `_restore`; where no token can be minted, the one of the run is used. -/
def restore (machineId instanceId fallbackToken : String) : Run Outcome := do
  let minted ← (ask .resolveAuth).attempt
  match minted with
  | .ok token => restoreWith machineId instanceId token
  | .error (.auth _) => restoreWith machineId instanceId fallbackToken
  | .error error => .raise error

/-! ## The step -/

/-- A field which is not empty. -/
def given (field : Option String) : Option String := field.filter (· ≠ "")

/-- `_machines_with_instances`. -/
def machinesWithInstances (machines : List Machine) : List Machine :=
  machines.filter fun machine ↦ (given machine.instanceId).isSome

/-- `_select_target`. -/
def selectTarget (token machineId : String) : List Machine → Run (Option (Machine × String))
  | [] => return none
  | machine :: rest => do
    if machineId ≠ "" ∧ machine.id ≠ some machineId then selectTarget token machineId rest
    else
      let instanceId := machine.instanceId.getD ""
      let status ← ask (.instanceStatus instanceId token)
      if status = readyStatus then return some (machine, instanceId) else selectTarget token machineId rest

/-- `_skip_reason`. -/
def skipReason (machines candidates : List Machine) (machineId : String) : String :=
  if machineId ≠ "" then
    s!"Machine {machineId} does not have an assigned instance in {readyStatus}; online repair requires one"
  else if candidates = [] then
    s!"None of the {machines.length} machine(s) at the site has an assigned instance; " ++
      "online repair requires a node with a tenant instance"
  else s!"{candidates.length} machine(s) have instances but none is in {readyStatus}; " ++
    "online repair requires a Ready instance"

/-- What the `finally` block finds: the report so far, and what is needed to take the node out of repair. -/
structure Progress where
  result : Result
  instanceId : String := ""
  token : String := ""
  restoreRequired : Bool := false

/-- How the `try` block ends: it returns, raises, or runs to its end. -/
inductive Stage where
  | returned (result : Result)
  | raised (progress : Progress) (error : Error)
  | finished (progress : Progress)

variable (args : Args)

/-- After the request to enter repair was accepted. -/
def observeRepair (progress : Progress) : Run Stage := do
  let operation := { progress.result.operation with requested := true }
  let accepted := { progress with result := { progress.result with operation }, restoreRequired := true }
  let observed ← (awaitStatus progress.instanceId progress.token repairStatus false pollDeadlineSeconds).attempt
  match observed with
  | .error error => return .raised accepted error
  | .ok status =>
    let shown := if status = "" then "an unknown state" else status
    let message := s!"Online repair was accepted but the instance stayed in {shown} rather than " ++
      s!"{repairStatus} within {pollDeadlineSeconds}s"
    return .finished { accepted with result := { accepted.result with operation := { operation with
      repairStateObserved := status = repairStatus
      message := if status = repairStatus then none else some message } } }

/-- The request to enter repair. -/
def enterRepair (machineId : String) (progress : Progress) : Run Stage := do
  let entered ← (ask (.patchMachine machineId progress.token enterBody)).attempt
  match entered with
  | .error error => return .raised { progress with restoreRequired := enterMayHaveApplied error } error
  | .ok _ => observeRepair progress

/-- The `try` block, with a token. -/
def reportMachine (result : Result) (machines : List Machine) (token : String) : Run Stage := do
  let candidates := machinesWithInstances machines
  let target ← (selectTarget token args.machineId candidates).attempt
  match target with
  | .error error => return .raised { result, token } error
  | .ok none => return .returned { result with
      skipped := true, skipReason := some (skipReason machines candidates args.machineId) }
  | .ok (some (machine, instanceId)) =>
    let machineId := machine.id.getD ""
    let result := { result with operation := { result.operation with nodeId := some machineId } }
    if args.machineId = "" ∧ args.autoSelect ≠ some "1" then
      return .returned { result with
        skipped := true
        skipReason := some (s!"Would report machine {machineId} for repair, but an auto-selected node is not " ++
          s!"mutated because it may belong to another tenant. Pass --machine-id {machineId} to confirm this node, " ++
          s!"or set NICO_ALLOW_ONLINE_REPAIR=1 to accept whichever eligible node is found") }
    else enterRepair machineId { result, instanceId, token }

/-- The `try` block. -/
def attemptReport (result : Result) (machines : List Machine) (auth : Option String) : Run Stage :=
  match auth with
  | some token => reportMachine args result machines token
  | none => do
    let minted ← (ask .resolveAuth).attempt
    match minted with
    | .error error => return .raised { result } error
    | .ok token => reportMachine args result machines token

/-- The report after an exception. -/
def failedResult (result : Result) : Error → Result
  | .auth text => { result with success := false, errorType := some "auth", error := some text }
  | .interrupt _ => result
  | error => { result with success := false, error := some error.shown }

/-- The report after the node was to be taken out of repair. -/
def restoredResult (result : Result) (outcome : Outcome) : Result :=
  let operation := { result.operation with
    restored := outcome.restored
    message := if outcome.warning ≠ "" then some outcome.warning else result.operation.message }
  if outcome.restored then { result with operation }
  else
    let listed := "; ".intercalate outcome.errors
    let stranded := s!"Node left in {repairStatus}: {listed}"
    { result with
      operation
      success := false
      cleanupErrors := outcome.errors
      error := some (((given result.error).map fun prior ↦ s!"{prior}; {stranded}").getD stranded) }

@[simp] theorem restored_restoredResult (result : Result) (outcome : Outcome) :
    (restoredResult result outcome).operation.restored = outcome.restored := by
  rw [restoredResult]
  split_ifs <;> rfl

/-- A node which is left in repair fails the step. -/
theorem restoredResult_of_stranded (result : Result) {outcome : Outcome} (h : outcome.restored = false) :
    (restoredResult result outcome).success = false ∧
      (restoredResult result outcome).cleanupErrors = outcome.errors := by
  simp [restoredResult, h]

/-- The `finally` block. -/
def settle (progress : Progress) : Run Result :=
  if !progress.restoreRequired then return progress.result
  else if args.skipRestore then return { progress.result with cleanupSkipped := true }
  else do
    let outcome ← restore (progress.result.operation.nodeId.getD "") progress.instanceId progress.token
    return restoredResult progress.result outcome

/-- The `except` and `finally` blocks; what is no `Exception` goes on after the second. -/
def conclude : Stage → Run Result
  | .returned result => return result
  | .finished progress => settle args progress
  | .raised progress error => do
    let result ← settle args { progress with result := failedResult progress.result error }
    if error.isException then return result else .raise error

/-- The token which is at hand, or a new one. -/
def tokenOf : Option String → Run String
  | some token => .done token
  | none => ask .resolveAuth

/-- What `list_site_machines` returns, with the errors which it catches. -/
def listSiteMachines (auth : Option String) : Run (Except Result (List Machine)) := do
  let result : Result := { siteId := args.siteId }
  let listed ← (do
    let token ← tokenOf auth
    ask (.listMachines token)).attempt
  match listed with
  | .ok [] => return .error { result with
      success := true
      skipped := true
      skipReason := some "No machines discovered at the site; break-fix checks require ingested hardware" }
  | .ok machines => return .ok machines
  | .error (.auth text) => return .error { result with errorType := some "auth", error := some text }
  | .error (.http code text) => return .error { result with error := some (Error.http code text).shown }
  | .error (.urlOrValue type text) => return .error { result with
      error := some (Error.urlOrValue type text).shown }
  | .error error => .raise error

/-- The token of the run, where one can be minted. -/
def mintToken : Run (Option String) := do
  let minted ← (ask .resolveAuth).attempt
  match minted with
  | .ok token => return some token
  | .error (.auth _) => return none
  | .error error => .raise error

/-- `main`; the run ends with its report, or with an exception and none. -/
def main : Run Result := do
  let auth ← mintToken
  let machines ← listSiteMachines args auth
  match machines with
  | .error result => return result
  | .ok machines =>
    let stage ← attemptReport args { success := true, siteId := args.siteId } machines auth
    conclude args stage

end IsvValidation.Nico.Repair
