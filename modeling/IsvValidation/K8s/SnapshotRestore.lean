import IsvValidation.Capacity.TopologyBlockCheck
import IsvValidation.Config.Response
import IsvValidation.K8s.VersionSupport
import IsvValidation.Library.Script
import IsvValidation.Validation.Report

/-!
# The check of snapshots and restores

The check writes a canary into a volume of its own, takes a snapshot of the volume, overwrites the canary,
restores the snapshot into a second volume, and reads both. All it makes lives in a namespace of its own, which
is removed at the end, whether or not the check passes: first what may hold on to the snapshot, then the
snapshot, then the namespace.
-/

namespace IsvValidation.K8s.Snapshot

open Config Host Library Library.Program Validation

/-! ## Commands -/

/-- What is applied into the namespace of the check. -/
inductive Manifest where
  | claim (name storageClass : String) (accessMode size : Value) (fromSnapshot : Option String)
  | snapshot (name snapshotClass claim : String)
  | pod (name claim : String)

/-- The commands of the check, by what they name. -/
inductive Command where
  | get (resource name : String) (ns : Option String)
  | createNamespace (ns : String)
  | apply (ns : String) (manifest : Manifest)
  | waitReady (ns pod : String) (seconds : ℤ)
  | waitSnapshot (ns snapshot : String) (seconds : ℤ)
  | exec (ns pod : String) (argv : List String)
  | delete (resource name ns : String) (seconds : ℤ)
  | waitGone (content : String) (seconds : ℤ)
  | deleteNamespace (ns : String) (seconds : ℤ)

/-- The arguments of `kubectl`. -/
def Command.args : Command → List String
  | .get resource name ns =>
    ["get", resource, name] ++ (ns.map fun ns ↦ ["-n", ns]).getD [] ++ ["-o", "json"]
  | .createNamespace ns => ["create", "namespace", ns]
  | .apply _ _ => ["apply", "-f", "-"]
  | .waitReady ns pod seconds =>
    ["wait", "-n", ns, s!"pod/{pod}", "--for=condition=Ready", s!"--timeout={seconds}s"]
  | .waitSnapshot ns snapshot seconds =>
    ["wait", "-n", ns, s!"volumesnapshot/{snapshot}", "--for=jsonpath=\x7b.status.readyToUse\x7d=true",
      s!"--timeout={seconds}s"]
  | .exec ns pod argv => ["exec", "-n", ns, pod, "--"] ++ argv
  | .delete resource name ns seconds =>
    ["delete", resource, name, "-n", ns, "--ignore-not-found=true", "--wait=true", s!"--timeout={seconds}s"]
  | .waitGone content seconds =>
    ["wait", s!"volumesnapshotcontent/{content}", "--for=delete", s!"--timeout={seconds}s"]
  | .deleteNamespace ns seconds =>
    ["delete", "namespace", ns, "--ignore-not-found=true", "--wait=true", s!"--timeout={seconds}s"]

/-- Programs which run commands; a command which cannot be run, or does not end in time, has the exit code -1. -/
abbrev Run (ε α : Type) := Program Command (fun _ ↦ CommandResult) ε α

def runtimeError (message : String) : PyError := .other "RuntimeError" message

/-- What the check catches: `RuntimeError`, `ValueError`, `KeyError` and `TypeError`. -/
def isCaught : PyError → Bool
  | .valueError _ | .keyError _ | .typeError _ => true
  | .other name _ => name = "RuntimeError" ∨ name = "JSONDecodeError"
  | _ => false

/-- `str(exc)`. -/
def errorText : PyError → String
  | .keyError message => s!"'{message}'"
  | .valueError message | .typeError message | .attributeError message | .osError message | .other _ message => message
  | .keyboardInterrupt => ""

/-- `text.strip()[:200]`. -/
def excerpt (host : CheckHost) (text : String) : String := .ofList ((host.data.strip text).toList.take 200)

/-! ## The parts of a run -/

/-- What a run is given beside its configuration: what the environment says of the two classes, whether there is a
`kubectl`, and the two random texts. -/
structure Setting where
  blockClass : String := ""
  snapshotClass : String := ""
  kubectl : Except PyError Unit := .ok ()
  suffix : String
  canary : String

section Parts

variable (host : CheckHost)

/-- `_command`, on the reply. -/
def commandOutput (command : Command) (result : CommandResult) : Except PyError String :=
  if result.exitCode ≠ 0 then
    let verb := command.args.headD ""
    let shown := excerpt host result.stderr
    .error (runtimeError s!"kubectl {verb} failed: {shown}")
  else .ok result.stdout

/-- `_command`. -/
def runCommand (command : Command) : Run PyError String := demand command (commandOutput host command)

/-- `_get`, on the reply. -/
def objectOutput (resource : String) (command : Command) (result : CommandResult) : Except PyError Json := do
  let payload ← host.loads (← commandOutput host command result)
  if payload.isObject then return payload else .error (.valueError s!"Invalid {resource} response")

/-- `_get`, for a name; only text can be an argument of a command. -/
def getObject (resource name : String) (ns : Option String := none) : Run PyError Json :=
  demand (.get resource name ns) (objectOutput host resource (.get resource name ns))

/-- `_get`, for a value. -/
def getNamed (resource : String) : Json → Run PyError Json
  | .str name => getObject host resource name
  | _ => .raise (.typeError "expected string or bytes-like object")

/-- What `_apply_manifest` returned; `proc.stderr or proc.stdout` is the text of a failure. -/
def applied (what : String) (result : CommandResult) : Except PyError Unit :=
  if result.exitCode ≠ 0 then
    let shown := excerpt host (if result.stderr = "" then result.stdout else result.stderr)
    .error (runtimeError s!"Could not create {what}: {shown}")
  else .ok ()

/-- `_create`, and `_apply_mount_pod_manifest` with what follows it. -/
def create (ns what : String) (manifest : Manifest) : Run PyError Unit :=
  demand (.apply ns manifest) (applied host what)

/-- `_exec`. -/
def execIn (ns pod : String) (argv : List String) : Run PyError String := do
  let stdout ← runCommand host (.exec ns pod argv)
  return host.data.strip stdout

end Parts

/-- `data.get(key, default)`. -/
def field (data : Json) (key : String) (default : Json := .null) : Except PyError Json := do
  return (← data.get key).getD default

/-- `data.get(first, {}).get(second, {}).get(last)`. -/
def path (data : Json) : List String → Except PyError Json
  | [] => .ok data
  | [key] => field data key
  | key :: keys => do path (← field data key (.obj [])) keys

/-- `first == second`. -/
abbrev same : Json → Json → Bool := Capacity.same

/-- A refusal, unless something holds. -/
def require (condition : Bool) (message : String) : Except PyError Unit :=
  if condition then .ok () else .error (runtimeError message)

/-! ## What is required of objects -/

/-- The driver of both classes, which must delete what they make. -/
def classesDriver (storage snapshot : Json) : Except PyError Json := do
  let driver ← field storage "provisioner" (.str "")
  require (driver.truthy && same (← field snapshot "driver") driver)
    "StorageClass and VolumeSnapshotClass must use the same CSI driver"
  require (same (← field storage "reclaimPolicy" (.str "Delete")) (.str "Delete") &&
      same (← field snapshot "deletionPolicy") (.str "Delete"))
    "Snapshot probe requires Delete reclaim and snapshot deletion policies"
  return driver

/-- The name of the volume to which a claim is bound. -/
def boundVolume (claim : Json) : Except PyError Json := do
  let name ← path claim ["spec", "volumeName"]
  require (same (← path claim ["status", "phase"]) (.str "Bound") && name.truthy) "Consumer has no bound volume"
  return name

/-- The handle of a volume of the driver. -/
def volumeHandle (driver volume : Json) : Except PyError Json := do
  let csi ← field (← field volume "spec" (.obj [])) "csi" (.obj [])
  let handle ← field csi "volumeHandle"
  require (same (← field csi "driver") driver && handle.truthy)
    "Bound volume is not provided by the configured CSI driver"
  return handle

/-- The content to which a snapshot is bound. -/
def boundContent (snapshot : Json) : Except PyError (Json × Json) := do
  let status ← field snapshot "status" (.obj [])
  return (status, ← field status "boundVolumeSnapshotContentName" (.str ""))

def isTrue : Json → Bool
  | .bool value => value
  | _ => false

/-- A snapshot which is ready and bound. -/
def requireReady (status contentName : Json) : Except PyError Unit := do
  require (isTrue (← field status "readyToUse") && contentName.truthy && !(← field status "error").truthy)
    "Snapshot has no ready bound content"

/-- The content of this very snapshot, of the driver, and ready. -/
def requireContent (driver snapshot content : Json) : Except PyError Unit := do
  let message := "Snapshot content does not prove a ready CSI snapshot of this claim"
  let spec ← field content "spec" (.obj [])
  let status ← field content "status" (.obj [])
  require (same (← field spec "driver") driver) message
  let claimed ← path spec ["volumeSnapshotRef", "uid"]
  let uid ← (← snapshot.item "metadata").item "uid"
  require (same claimed uid) message
  require (isTrue (← field status "readyToUse")) message
  require (← field status "snapshotHandle").truthy message

/-! ## The body -/

structure Params where
  storageClass : String
  snapshotClass : String
  accessMode : Value
  size : Value
  ns : String
  canary : String
  seconds : ℤ

/-- What the cleanup finds: what was made, and the report so far. -/
structure Progress where
  created : Bool := false
  snapshotCreated : Bool := false
  contentName : Json := .str ""
  report : Report := {}

/-- An exception, with what was made before it. -/
abbrev Stopped := Progress × PyError

def during {α : Type} (progress : Progress) (program : Run PyError α) : Run Stopped α :=
  program.mapError (Prod.mk progress)

section Body

variable (host : CheckHost) (params : Params)

/-- `_mount`. -/
def mount (driver : Json) (name : String) : Run PyError Json := do
  create host params.ns "consumer" (.pod name name)
  let _ ← runCommand host (.waitReady params.ns name params.seconds)
  let claim ← getObject host "pvc" name (some params.ns)
  let volumeName ← .ofExcept (boundVolume claim)
  let volume ← getNamed host "pv" volumeName
  .ofExcept (volumeHandle driver volume)

/-- Up to the namespace. -/
def prepare : Run PyError Json := do
  let storage ← getObject host "storageclass" params.storageClass
  let snapshot ← getObject host "volumesnapshotclass" params.snapshotClass
  let driver ← .ofExcept (classesDriver storage snapshot)
  let _ ← runCommand host (.createNamespace params.ns)
  return driver

def changed : String := "changed-after-snapshot"

def writeCanary (text : String) : List String := ["sh", "-c", s!"echo {text} > /data/snapshot-canary && sync"]

def readCanary : List String := ["cat", "/data/snapshot-canary"]

def claimOf (name : String) (fromSnapshot : Option String) : Manifest :=
  .claim name params.storageClass params.accessMode params.size fromSnapshot

/-- Up to the snapshot; the handle of the source. -/
def seed (driver : Json) : Run PyError Json := do
  create host params.ns "PersistentVolumeClaim" (claimOf params "source" none)
  let handle ← mount host params driver "source"
  let _ ← execIn host params.ns "source" (writeCanary params.canary)
  create host params.ns "VolumeSnapshot" (.snapshot "snapshot" params.snapshotClass "source")
  return handle

/-- The snapshot, once it is ready. -/
def readSnapshot : Run PyError Json := do
  let _ ← runCommand host (.waitSnapshot params.ns "snapshot" params.seconds)
  getObject host "volumesnapshot" "snapshot" (some params.ns)

/-- What is required of the snapshot and of its content. -/
def checkSnapshot (driver snapshot status contentName : Json) : Run PyError Unit := do
  .ofExcept (requireReady status contentName)
  let content ← getNamed host "volumesnapshotcontent" contentName
  .ofExcept (requireContent driver snapshot content)

/-- From the change of the source on. -/
def restore (driver sourceHandle : Json) : Run PyError Unit := do
  let _ ← execIn host params.ns "source" (writeCanary changed)
  create host params.ns "PersistentVolumeClaim" (claimOf params "restored" (some "snapshot"))
  let handle ← mount host params driver "restored"
  .ofExcept (require (!same handle sourceHandle) "Restore reused the source CSI volume")
  let restored ← execIn host params.ns "restored" readCanary
  .ofExcept (require (restored = params.canary) "Restored data does not match the snapshot canary")
  let source ← execIn host params.ns "source" readCanary
  .ofExcept (require (source = changed) "Source mutation was not preserved independently of the restore")

/-- The `try` block. -/
def body : Run Stopped Progress := do
  let driver ← during {} (prepare host params)
  let handle ← during { created := true } (seed host params driver)
  let progress := { created := true, snapshotCreated := true }
  let snapshot ← during progress (readSnapshot host params)
  let (status, contentName) ← during progress (.ofExcept (boundContent snapshot))
  let progress := { progress with contentName }
  during progress (checkSnapshot host driver snapshot status contentName)
  let progress := { progress with
    report := progress.report.reportSubtest "snapshot-ready" true "CSI snapshot and bound content are ready" }
  during progress (restore host params driver handle)
  return { progress with
    report := (progress.report.reportSubtest "snapshot-data-restored" true
      "Distinct volume restored original data").setPassed
        "CSI snapshot restored point-in-time data; source remains independently modified" }

/-! ## The end -/

/-- The two parts of the cleanup report a failure after the error which there was. -/
def cleanupFailed (report : Report) (what : String) (error : PyError) : Report :=
  report.setFailed (host.data.strip s!"{report.error} {what} cleanup failed: {errorText error}")

/-- What may hold on to the snapshot goes first, then the snapshot, and its content is waited for. -/
def removeRestored (progress : Progress) (seconds : ℤ) : Run PyError Unit := do
  let _ ← runCommand host (.delete "pod" "restored" params.ns seconds)
  let _ ← runCommand host (.delete "pvc" "restored" params.ns seconds)
  if progress.snapshotCreated then
    let _ ← runCommand host (.delete "volumesnapshot" "snapshot" params.ns seconds)
  if progress.contentName.truthy then
    let content := host.strOf progress.contentName.toValue
    let _ ← runCommand host (.waitGone content seconds)

/-- The `finally` block. -/
def cleanup (progress : Progress) : Run PyError Report :=
  if !progress.created then return progress.report
  else do
    let seconds := max params.seconds 120
    let removed ← (removeRestored host params progress seconds).attempt
    let report := match removed with
      | .ok _ => progress.report
      | .error error => cleanupFailed host progress.report "Snapshot" error
    let gone ← (runCommand host (.deleteNamespace params.ns seconds)).attempt
    return match gone with
      | .ok _ => report
      | .error error => cleanupFailed host report "Namespace" error

/-- How `run` ends. -/
structure Ended where
  report : Report
  raised : Option PyError := none

/-- `run`, when its configuration is in order. -/
def runWith : Run PyError Ended := do
  let ended ← (body host params).attempt
  match ended with
  | .ok progress => return { report := ← cleanup host params progress }
  | .error (progress, error) =>
    if isCaught error then
      let report := progress.report.setFailed (errorText error)
      return { report := ← cleanup host params { progress with report } }
    else return { report := ← cleanup host params progress, raised := some error }

end Body

/-! ## The check -/

/-- How the check is recorded. -/
inductive Outcome where
  | skipped (reason : String)
  | finished (report : Report)
  deriving DecidableEq

def Outcome.Passed : Outcome → Prop
  | .skipped _ => False
  | .finished report => report.passed = true

section Check

variable (host : CheckHost) (setting : Setting) (config : Items)

/-- `str(self.config.get(key) or default)`. -/
def textOr (key default : String) : String :=
  (((config.lookup (.str key)).filter Value.truthy).map host.strOf).getD default

def requiredOf : Except Stop Bool :=
  match config.lookup (.str "required") with
  | none => .ok false
  | some (.scalar (.bool required)) => .ok required
  | some _ => .error (.failed "required must be a boolean")

/-- The two classes; without them the check is skipped, or fails when it is required. -/
def classesOf : Except Stop (String × String) := do
  let storageClass := textOr host config "storage_class" setting.blockClass
  let snapshotClass := textOr host config "snapshot_class" setting.snapshotClass
  let required ← requiredOf config
  let message := "CSI snapshot validation requires storage_class and snapshot_class"
  if storageClass = "" ∨ snapshotClass = "" then
    .error (if required then .failed message else .skipped message)
  else .ok (storageClass, snapshotClass)

/-- `run`, up to its first command. -/
def paramsOf : Except Stop Params := do
  let (storageClass, snapshotClass) ← classesOf host setting config
  let seconds ← host.parsePositiveInt config "wait_timeout_s" 180
  CheckHost.orRaise setting.kubectl
  return {
    storageClass, snapshotClass, seconds
    accessMode := (config.lookup (.str "access_mode")).getD (.str "ReadWriteOnce")
    size := (config.lookup (.str "pvc_size")).getD (.str "1Gi")
    ns := s!"isvtest-csi-snapshot-{setting.suffix}"
    canary := setting.canary }

/-- An exception which `execute` catches. -/
def raisedReport (report : Report) (error : PyError) : Report :=
  report.setFailed s!"Validation raised exception: {errorText error}"

def Ended.outcome (ended : Ended) : Outcome :=
  .finished ((ended.raised.map (raisedReport ended.report)).getD ended.report)

/-- The output of a step which was skipped. -/
def skippedOutput : Option Items :=
  match config.lookup (.str "step_output") with
  | some (.dict output) =>
    if output.lookup (.str "skipped") matches some (.scalar (.bool true)) then some output else none
  | _ => none

/-- `execute`. -/
def execute : Run PyError Outcome :=
  match skippedOutput config with
  | some output => return .skipped (textOr host output "skip_reason" "K8sCsiSnapshotRestoreCheck skipped")
  | none =>
    match paramsOf host setting config with
    | .error (.skipped reason) => return .skipped reason
    | .error (.failed error) => return .finished (({} : Report).setFailed error)
    | .error (.raised error) => return .finished (raisedReport {} error)
    | .ok params => do
      let ended ← runWith host params
      return ended.outcome

end Check

end IsvValidation.K8s.Snapshot
