import Mathlib.Data.Rat.Defs
import IsvValidation.Breakfix.Node
import IsvValidation.Library.VersionedStore

/-!
# The cordon test

The workflow of `cordon_node` as a program over kubectl: select a node, start a probe on it, claim
the node, see that the probe goes on and a second one is not scheduled, and clean up. A kubectl
process may fail in any way at any point; the texts of its failures come with the reply. Clocks are
left out: how often the last probe is polled before the deadline is part of the setting.
-/

namespace IsvValidation.Breakfix

open Library VersionedStore

/-! ## Kubectl -/

/-- How a kubectl process fails: past its deadline, not run or with unreadable output, with any other
exception, or with a nonzero exit. -/
inductive ProcessFailure where
  | timedOut (message : String)
  | failed (message : String)
  | raised (message : String)
  | exited (detail : String)

structure Manifest where
  name : String
  podNamespace : String
  hostname : String
  image : String
  tolerations : List Toleration

inductive PodCommand where
  | create (manifest : Manifest)
  | wait (name podNamespace timeout : String)
  | get (name podNamespace : String)
  | delete (name podNamespace : String)

structure Pod where
  nodeName : String := ""
  phase : String := ""
  conditions : List Condition := []

def PodCommand.Output : PodCommand → Type
  | get _ _ => Pod
  | _ => Unit

/-- What a patch of a node is sent for. -/
inductive Purpose where
  | claim
  | release
  deriving DecidableEq

abbrev KubectlRequest := Request String Purpose (List PatchOp) PodCommand

abbrev KubectlReply : KubectlRequest → Type :=
  Reply Node ProcessFailure fun command ↦ Except ProcessFailure command.Output

abbrev Kubectl := Program KubectlRequest KubectlReply

/-- `_run` with `check`: every failure is raised. -/
def checked {Output : Type} (args : String) : Except ProcessFailure Output → Except Failure Output
  | .ok output => .ok output
  | .error (.timedOut message) => .error (.kubectlTimeout message)
  | .error (.failed message) => .error (.cordonTest message)
  | .error (.raised message) => .error (.unexpected message)
  | .error (.exited detail) => .error (.cordonTest s!"kubectl {args} failed: {detail}")

/-- `_select_node`. -/
def selectNodeOf (requestedNode : String) : Kubectl Failure NodeSelection :=
  .call .list fun reply ↦
    .ofExcept ((checked "get nodes -o json" reply).bind (selectNode · requestedNode))

/-- `_get_node`. -/
def getNode (nodeName : String) : Kubectl Failure Node :=
  .call (.get nodeName) fun reply ↦ .ofExcept (checked s!"get node {nodeName} -o json" reply)

/-! ## Claim and release -/

structure CordonOwnership where
  nodeName : String
  token : String
  deriving DecidableEq

/-- `_claim_is_observed`. -/
def claimIsObserved (ownership : CordonOwnership) : Kubectl Failure Bool := do
  match ← (getNode ownership.nodeName).attempt with
  | .ok node => return ownedBy node ownership.token && node.spec.unschedulable = some true
  | .error (.unexpected message) => .raise (.unexpected message)
  | .error _ => return false

/-- `_claim_node`: when the patch may have been committed in spite of a failure, the node is read. -/
def claimNode (selection : NodeSelection) (token : String) : Kubectl Failure CordonOwnership :=
  let ownership : CordonOwnership := ⟨selection.name, token⟩
  .call (.patch .claim selection.name (claimPatch selection token)) fun
    | .ok () => .done ownership
    | .error (.timedOut message) => do
      if ← claimIsObserved ownership then return ownership
      .raise (.kubectlTimeout message)
    | .error (.exited detail) => do
      if ← claimIsObserved ownership then return ownership
      .raise (.cordonTest s!"Could not atomically claim node '{selection.name}': {detail}")
    | .error (.failed message) => .raise (.cordonTest message)
    | .error (.raised message) => .raise (.unexpected message)

def Failure.message : Failure → String
  | cordonTest message => message
  | kubectlTimeout message => message
  | unexpected message => message

def uncordonAttempts : ℕ := 3

/-- The rounds of `_release_node` which are left, with the last error. -/
def releaseRounds (ownership : CordonOwnership) : ℕ → String → Kubectl Failure Unit
  | 0, lastError =>
    .raise (.cordonTest s!"Could not safely uncordon node '{ownership.nodeName}': {lastError}")
  | rounds + 1, _ => do
    match ← (getNode ownership.nodeName).attempt with
    | .error (.unexpected message) => .raise (.unexpected message)
    | .error error => releaseRounds ownership rounds error.message
    | .ok node =>
      if node.owner = none ∧ ¬ node.unschedulable then return ()
      if node.owner ≠ some ownership.token then
        .raise (.cordonTest (s!"Node '{ownership.nodeName}' ownership changed; " ++
          "leaving schedulability unchanged"))
      else if node.resourceVersion = "" then
        .raise (.cordonTest s!"Node '{ownership.nodeName}' is missing metadata.resourceVersion")
      else
        .call (.patch .release ownership.nodeName (releasePatch node ownership.token)) fun
          | .ok () => .done ()
          | .error (.timedOut message) => releaseRounds ownership rounds message
          | .error (.exited detail) => releaseRounds ownership rounds detail
          | .error (.failed message) => .raise (.cordonTest message)
          | .error (.raised message) => .raise (.unexpected message)

/-- `_release_node`. -/
def releaseNode (ownership : CordonOwnership) : Kubectl Failure Unit :=
  releaseRounds ownership uncordonAttempts "conditional patch did not succeed"

/-! ## Probes -/

/-- `_pod_is_ready_on_node`. -/
def podIsReadyOnNode (pod : Pod) (nodeName : String) : Bool :=
  pod.nodeName = nodeName && pod.phase = "Running" &&
    pod.conditions.any fun item ↦ item.type = "Ready" && item.status = "True"

/-- `_pod_is_unschedulable`. -/
def podIsUnschedulable (pod : Pod) : Bool :=
  pod.nodeName = "" && pod.conditions.any fun item ↦
    item.type = "PodScheduled" && item.status = "False" && item.reason = "Unschedulable"

def createPod (manifest : Manifest) : Kubectl Failure Unit :=
  .call (.command (.create manifest)) fun reply ↦ .ofExcept (checked "create -f -" reply)

def waitPod (name podNamespace timeout : String) : Kubectl Failure Unit :=
  .call (.command (.wait name podNamespace timeout)) fun reply ↦
    .ofExcept (checked
      s!"wait --for=condition=Ready pod/{name} -n {podNamespace} --timeout={timeout}s" reply)

/-- `_get_pod`. -/
def getPod (name podNamespace : String) : Kubectl Failure Pod :=
  .call (.command (.get name podNamespace)) fun reply ↦
    .ofExcept (checked s!"get pod {name} -n {podNamespace} -o json" reply)

/-- One poll of `_wait_for_unschedulable`, and what follows if it does not settle the matter. -/
def pollUnschedulable (name podNamespace : String) (otherwise : Kubectl Failure Bool) :
    Kubectl Failure Bool := do
  match ← (getPod name podNamespace).attempt with
  | .ok pod => if podIsUnschedulable pod then return true else otherwise
  | .error (.unexpected message) => .raise (.unexpected message)
  | .error _ => otherwise

/-- `_wait_for_unschedulable`, with the polls which follow the first before the deadline. -/
def waitForUnschedulable (name podNamespace : String) : ℕ → Kubectl Failure Bool
  | 0 => pollUnschedulable name podNamespace (.done false)
  | polls + 1 => pollUnschedulable name podNamespace (waitForUnschedulable name podNamespace polls)

/-! ## Cleanup -/

/-- The loop of `_cleanup` over the probe pods. -/
def deletePods (podNamespace : String) : List String → List String → Kubectl Failure (List String)
  | [], errors => .done errors
  | podName :: rest, errors =>
    let failed (message : String) :=
      deletePods podNamespace rest (errors ++ [s!"delete pod {podNamespace}/{podName}: {message}"])
    .call (.command (.delete podName podNamespace)) fun
      | .ok () => deletePods podNamespace rest errors
      | .error (.timedOut message) => failed message
      | .error (.failed message) => failed message
      | .error (.exited detail) => failed detail
      | .error (.raised message) => .raise (.unexpected message)

/-- `_cleanup`. -/
def cleanup (podNamespace : String) (podNames : List String) (ownership : Option CordonOwnership) :
    Kubectl Failure (List String) := do
  let errors ← deletePods podNamespace podNames []
  match ownership with
  | none => return errors
  | some ownership =>
    match ← (releaseNode ownership).attempt with
    | .ok () => return errors
    | .error (.unexpected message) => .raise (.unexpected message)
    | .error error => return errors ++ [s!"uncordon node {ownership.nodeName}: {error.message}"]

/-! ## The run -/

structure Args where
  node : String
  podNamespace : String
  image : String
  timeoutSeconds : ℚ
  timeoutText : String
  pollIntervalSeconds : ℚ

/-- What a run starts from: its arguments or the parser's complaint, the words of `KUBECTL` or the
splitter's complaint, a fresh id, and the polls it has time for. -/
structure Setting where
  arguments : Except String Args
  kubectl : Except String (List String)
  runId : String
  polls : ℕ

/-- The node a run is for, if it gets that far. -/
def Setting.target (setting : Setting) : String :=
  match setting.arguments with
  | .ok args => args.node
  | .error _ => ""

def Setting.token (setting : Setting) : String := s!"isvtest-bfx01-04-{setting.runId}"

def Setting.ownership (setting : Setting) : CordonOwnership := ⟨setting.target, setting.token⟩

/-- `_kubectl_command`. -/
def kubectlCommand (setting : Setting) : Except Failure (List String) :=
  match setting.kubectl with
  | .error error => .error (.cordonTest s!"Invalid KUBECTL value: {error}")
  | .ok [] => .error (.cordonTest "KUBECTL must not be blank")
  | .ok command => .ok command

structure Operation where
  cordoned : Bool := false
  newWorkloadsBlocked : Bool := false
  existingWorkloadsRunning : Bool := false
  nodeId : Option String := none

/-- The variables of `main` which outlive an error. -/
structure Locals where
  operation : Operation := {}
  kubectl : List String := []
  createdPods : List String := []
  ownership : Option CordonOwnership := none
  podNamespace : String := "default"

structure Report where
  success : Bool
  skipReason : Option String := none
  error : Option String := none
  cleanupErrors : List String := []
  operation : Operation

/-- A `raise` under a condition. -/
def require (condition : Bool) (message : String) : Kubectl Failure Unit :=
  if condition then .done () else .raise (.cordonTest message)

def existingPod (setting : Setting) : String := s!"isvtest-bfx-existing-{setting.runId}"

def blockedPod (setting : Setting) : String := s!"isvtest-bfx-blocked-{setting.runId}"

def probeManifest (args : Args) (selection : NodeSelection) (name : String) : Manifest :=
  ⟨name, args.podNamespace, selection.hostname, args.image, selection.tolerations⟩

/-- The body of `main` up to the claim: a node is selected and a probe runs on it. Errors come with
the variables. -/
def startProbe (setting : Setting) (args : Args) :
    Kubectl (Failure × Locals) (NodeSelection × Locals) := do
  let locals : Locals := { podNamespace := args.podNamespace }
  (require (0 < args.timeoutSeconds && 0 < args.pollIntervalSeconds)
    "Timeout and poll interval must be greater than zero").mapError (·, locals)
  let kubectl ← (Program.ofExcept (kubectlCommand setting)).mapError (·, locals)
  let locals := { locals with kubectl }
  let selection ← (selectNodeOf args.node).mapError (·, locals)
  let locals :=
    { locals with
      operation := { nodeId := some selection.name }
      createdPods := [existingPod setting] }
  (createPod (probeManifest args selection (existingPod setting))).mapError (·, locals)
  (waitPod (existingPod setting) args.podNamespace args.timeoutText).mapError (·, locals)
  return (selection, locals)

/-- The claim of `main`, from a refreshed selection. -/
def claimSelected (setting : Setting) (selection : NodeSelection) (locals : Locals) :
    Kubectl (Failure × Locals) Locals := do
  let claimSelection ← (selectNodeOf selection.name).mapError (·, locals)
  let ownership : CordonOwnership := ⟨selection.name, setting.token⟩
  let locals := { locals with ownership := some ownership }
  let _ ← (claimNode claimSelection ownership.token).mapError (·, locals)
  return locals

/-- The assertions of `main` once the node is claimed. -/
def observe (setting : Setting) (args : Args) (selection : NodeSelection) (locals : Locals) :
    Kubectl (Failure × Locals) Locals := do
  let node ← (getNode selection.name).mapError (·, locals)
  let cordoned := node.spec.unschedulable = some true && ownedBy node setting.token
  let locals := { locals with operation := { locals.operation with cordoned } }
  (require cordoned s!"Node '{selection.name}' was not marked unschedulable by this run").mapError
    (·, locals)
  let pod ← (getPod (existingPod setting) args.podNamespace).mapError (·, locals)
  let existingWorkloadsRunning := podIsReadyOnNode pod selection.name
  let locals := { locals with operation := { locals.operation with existingWorkloadsRunning } }
  (require existingWorkloadsRunning
    "Existing probe pod did not remain Ready on the cordoned node").mapError (·, locals)
  let locals := { locals with createdPods := [existingPod setting, blockedPod setting] }
  (createPod (probeManifest args selection (blockedPod setting))).mapError (·, locals)
  let newWorkloadsBlocked ←
    (waitForUnschedulable (blockedPod setting) args.podNamespace setting.polls).mapError (·, locals)
  let locals := { locals with operation := { locals.operation with newWorkloadsBlocked } }
  (require newWorkloadsBlocked
    "New probe pod was not confirmed unschedulable on the cordoned node").mapError (·, locals)
  return locals

/-- The body of `main`: it is skipped, or passes with the variables. -/
def exercise (setting : Setting) : Kubectl (Failure × Locals) (Option Locals) := do
  let args ← Program.ofExcept (setting.arguments.mapError fun message ↦
    (Failure.cordonTest s!"Invalid arguments: {message}", {}))
  if args.node = "" then return none
  let (selection, locals) ← startProbe setting args
  let locals ← claimSelected setting selection locals
  let locals ← observe setting args selection locals
  return some locals

/-- The text of an error in the report. -/
def Failure.report : Failure → String
  | unexpected message => s!"Unexpected cordon test failure: {message}"
  | failure => failure.message

/-- The `finally` clause of `main`: the errors of the cleanup. -/
def cleanupErrors (locals : Locals) : Kubectl Empty (List String) := do
  if locals.kubectl.isEmpty then return []
  match ← (cleanup locals.podNamespace locals.createdPods locals.ownership).attempt with
  | .ok errors => return errors
  | .error failure => return [s!"unexpected cleanup failure: {failure.message}"]

/-- The report of a run which was not skipped, from its error and those of the cleanup. -/
def report (locals : Locals) (error : Option String) (cleanupErrors : List String) : Report :=
  if cleanupErrors.isEmpty then
    { success := error.isNone, error, operation := locals.operation }
  else
    { success := false
      error := some (error.getD "Cordon test cleanup failed")
      cleanupErrors
      operation := locals.operation }

def finish (locals : Locals) (error : Option String) : Kubectl Empty Report := do
  return report locals error (← cleanupErrors locals)

def skippedReport : Report :=
  { success := true
    skipReason := some "No dedicated break-fix node configured"
    operation := {} }

/-- `main`; no error gets past it. -/
def main (setting : Setting) : Kubectl Empty Report := do
  match ← (exercise setting).attempt with
  | .ok none => return skippedReport
  | .ok (some locals) => finish locals none
  | .error (failure, locals) => finish locals (some failure.report)

end IsvValidation.Breakfix
