import IsvValidation.Host.Quoting
import IsvValidation.K8s.VersionSupport
import IsvValidation.Library.Execution
import IsvValidation.Storage.WekaDirectory

/-!
# The checks of enforced quotas

`StorageDirectoryQuotaEnforcementCheck` and the check of user quotas acquire a volume, set a quota on it,
read it back, delete it, set it again and write past its limit. The two differ in what a quota is named
by, in their texts, and in what they make of a backend without user quotas. A run is a program of calls
to the providers, of commands, and of reports of subtests.
-/

namespace IsvValidation.Storage.QuotaProbe

open Config Host K8s Library

/-! ## Calls -/

inductive QuotaKind where
  | directory
  | user
  deriving DecidableEq

/-- A volume of a provider. -/
structure VolumeName where
  provider : String
  id : String
  deriving DecidableEq

/-- A quota of a volume, with the path of its directory or with its user. -/
structure QuotaName where
  kind : QuotaKind
  volume : VolumeName
  name : String
  deriving DecidableEq

/-- What a provider raises: the errors of the storage interface, of which two are told apart, or any
other exception. -/
inductive ApiError where
  | notFound (text : String)
  | notSupported (text : String)
  | storageApi (typeName text : String)
  | other (typeName text : String)
  deriving DecidableEq

namespace ApiError

def typeName : ApiError → String
  | notFound _ => "NotFoundError"
  | notSupported _ => "NotSupportedError"
  | storageApi name _ => name
  | other name _ => name

def text : ApiError → String
  | notFound text => text
  | notSupported text => text
  | storageApi _ text => text
  | other _ text => text

/-- `isinstance(error, StorageApiError)`. -/
def isStorageApi : ApiError → Bool
  | other _ _ => false
  | _ => true

/-- `isinstance(error, NotSupportedError)`. -/
def isNotSupported : ApiError → Bool
  | notSupported _ => true
  | _ => false

end ApiError

structure MountSpec where
  fsType : String
  source : String
  options : Option String := none

/-- What the checks read of a volume. -/
structure Volume where
  tenantId : String
  id : String
  mount : Option MountSpec := none
  csiHandle : Option String := none
  path : Option String := none

/-- A result which is reported; a skipped one counts as not passed. -/
structure Subtest where
  name : String
  passed : Bool
  message : String
  skipped : Bool := false

/-- Where a quota is deleted: by the round trip, or by the cleanup. -/
inductive Site where
  | roundTrip
  | cleanup
  deriving DecidableEq

/-- What a run does to the outside. The volume which is found for a claim, or created, is noted with the
quota the run will set on it; how often a loop polls is up to the clock. -/
inductive Call where
  | uuid
  | command (text : String)
  | write (text : String) (mib : ℕ)
  | applyPvc (namespace_ name : String)
  | applyMountPod (namespace_ podName pvcName : String)
  | polls (timeout interval : ℕ)
  | mkdtemp (start : String)
  | getVolume (volume : VolumeName) (tenantId : Option String)
  | listVolumes (provider : String) (tenantId : Option String)
  | createVolume (provider : String) (sizeBytes : ℤ) (volumeType : String) (tenantId : Option String)
      (name : String)
  | deleteVolume (volume : VolumeName) (tenantId : Option String)
  | acquired (quota : QuotaName)
  | setQuota (quota : QuotaName) (tenantId : String) (hard : ℤ)
  | getQuota (quota : QuotaName) (tenantId : String)
  | listQuotas (kind : QuotaKind) (volume : VolumeName) (tenantId : String)
  | deleteQuota (quota : QuotaName) (tenantId : Option String) (site : Site)
  | report (subtest : Subtest)

/-- What comes back. A quota which is read is its limit in bytes, and those which are listed are told
by their paths or users. -/
abbrev Reply : Call → Type
  | .uuid => String
  | .command _ => CommandResult
  | .write _ _ => CommandResult
  | .applyPvc _ _ => ℤ × String
  | .applyMountPod _ _ _ => ℤ × String
  | .polls _ _ => ℕ
  | .mkdtemp _ => Except ApiError String
  | .getVolume _ _ => Except ApiError Volume
  | .listVolumes _ _ => Except ApiError (List Volume)
  | .createVolume _ _ _ _ _ => Except ApiError Volume
  | .deleteVolume _ _ => Except ApiError Unit
  | .acquired _ => Unit
  | .setQuota _ _ _ => Except ApiError Unit
  | .getQuota _ _ => Except ApiError (Option ℤ)
  | .listQuotas _ _ _ => Except ApiError (List (Option String))
  | .deleteQuota _ _ _ => Except ApiError Unit
  | .report _ => Unit

/-- A part of a run, which ends with a value or raises. -/
abbrev Run := Program Call Reply

variable {ε : Type} {α : Type}

def command (text : String) : Run ε CommandResult := .call (.command text) .done

def report (subtest : Subtest) : Run ε Bool := .call (.report subtest) fun _ ↦ .done subtest.passed

def setQuota (quota : QuotaName) (tenantId : String) (hard : ℤ) : Run ApiError Unit :=
  .call (.setQuota quota tenantId hard) .ofExcept

def listQuotas (kind : QuotaKind) (volume : VolumeName) (tenantId : String) :
    Run ApiError (List (Option String)) := .call (.listQuotas kind volume tenantId) .ofExcept

/-! ## The checks -/

/-- Strings and documents as Python reads them. -/
structure ProbeHost extends Numerals where
  loads : String → Except String Json
  str : Json → String
  lowerAscii : ∀ text : String, (∀ c ∈ text.toList, c.toNat < 128 ∧ c.isUpper = false) →
    lower text = text

/-- The configuration of a check; an absent entry is none. -/
structure ProbeConfig where
  podName : Option String := none
  pvcName : Option String := none
  storageClass : Option String := none
  pvcNamespace : Option String := none
  probeUser : Option String := none
  namespacePrefix : Option String := none
  createHardBytes : Option ℤ := none
  enforcementHardBytes : Option ℤ := none
  volumeSizeBytes : Option ℤ := none
  bindTimeout : Option ℕ := none

/-- A check with its settings. -/
structure Check where
  host : ProbeHost
  kind : QuotaKind
  podName : String
  pvcName : String
  storageClass : String
  pvcNamespace : String
  probeUser : String
  createHard : ℤ
  enforceHard : ℤ
  volumeSize : ℤ
  bindTimeout : ℕ
  nsPrefix : String
  k8sAvailable : Bool
  kubectl : String

structure Provider where
  name : String
  tenantId : Option String := none
  volumeType : String
  nativeLifecycle : Bool := false

/-- `_MIB`. -/
def mib : ℕ := 1048576

/-- `_ENOSPC_TOKENS`. -/
def enospcTokens : List String := ["no space left", "disk quota exceeded", "quota exceeded"]

/-- `_READBACK_TIMEOUT_S`. -/
def readbackTimeout : ℕ := 30

/-- `_READBACK_POLL_S`. -/
def readbackPoll : ℕ := 2

/-- `config.get(key) or default`. -/
def textOr (value : Option String) (default : String) : String := (value.filter (· ≠ "")).getD default

/-- `int(config.get(key) or default)`. -/
def numberOr (value : Option ℤ) (default : ℤ) : ℤ := (value.filter (· ≠ 0)).getD default

/-- The settings of a check, from its configuration, the storage class of the environment and the
cluster it can reach. -/
def checkOf (host : ProbeHost) (kind : QuotaKind) (nsPrefix : String) (config : ProbeConfig)
    (sharedFsClass : String) (kubectl : Option String) : Check :=
  let enforceHard := numberOr config.enforcementHardBytes (64 * mib)
  { host := host
    kind := kind
    podName := textOr config.podName ""
    pvcName := textOr config.pvcName ""
    storageClass := textOr config.storageClass sharedFsClass
    pvcNamespace := textOr config.pvcNamespace "default"
    probeUser := textOr config.probeUser "65534"
    createHard := numberOr config.createHardBytes 1073741824
    enforceHard := enforceHard
    volumeSize := numberOr config.volumeSizeBytes (max 1073741824 (enforceHard * 2))
    bindTimeout := (config.bindTimeout.filter (· ≠ 0)).getD 240
    nsPrefix := textOr config.namespacePrefix nsPrefix
    k8sAvailable := kubectl.isSome
    kubectl := kubectl.getD "kubectl" }

/-- `StorageDirectoryQuotaEnforcementCheck`. -/
def storageDirectoryQuotaEnforcementCheck (host : ProbeHost) :
    ProbeConfig → String → Option String → Check := checkOf host .directory "isvtest-dq"

/-- `StorageUserQuotaEnforcementCheck`. -/
def storageUserQuotaEnforcementCheck (host : ProbeHost) :
    ProbeConfig → String → Option String → Check := checkOf host .user "isvtest-uq"

/-! ## Texts -/

namespace QuotaKind

/-- `dq` or `uq`, in the names of what a run creates. -/
def short : QuotaKind → String
  | directory => "dq"
  | user => "uq"

/-- How the subtests are named. -/
def subtest : QuotaKind → String
  | directory => "directory-quota"
  | user => "user-quota"

/-- The quota in the names of the methods of a provider. -/
def method : QuotaKind → String
  | directory => "directory_quota"
  | user => "user_quota"

end QuotaKind

def intText : Option ℤ → String
  | some value => toString value
  | none => "None"

/-- `text[:200]`. -/
def brief (text : String) : String := .ofList (text.toList.take 200)

namespace Check

variable (check : Check)

/-- The user in a message, which the check of directories leaves out. -/
def ofUser (lead tail : String) : String :=
  match check.kind with
  | .directory => ""
  | .user => s!"{lead}user {quoted check.probeUser}{tail}"

/-- `(result.stderr or result.stdout).strip()`, cut. -/
def failureText (result : CommandResult) : String :=
  brief (check.host.strip (if result.stderr ≠ "" then result.stderr else result.stdout))

/-- `result.stderr.strip() or result.stdout.strip()`. -/
def detail (result : CommandResult) : String :=
  let stderr := check.host.strip result.stderr
  if stderr ≠ "" then stderr else check.host.strip result.stdout

/-- `_fail_both`. -/
def failBoth (tag message : String) : Run ε Bool := do
  let _ ← report { name := s!"{check.kind.subtest}-crud[{tag}]", passed := false, message := message }
  report { name := s!"{check.kind.subtest}-enforcement[{tag}]", passed := false, message := message }

/-- `_skip_both`. -/
def skipBoth (tag message : String) : Run ε Bool := do
  let _ ← report {
    name := s!"{check.kind.subtest}-crud[{tag}]", passed := true, message := message, skipped := true }
  report {
    name := s!"{check.kind.subtest}-enforcement[{tag}]", passed := true, message := message,
    skipped := true }

/-! ## The round trip -/

/-- One reading of the hard limit; a quota which is not found has none yet. -/
def readHard (quota : QuotaName) (tenantId : String) : Run ApiError (Option ℤ) :=
  .call (.getQuota quota tenantId) fun
    | .ok hard => .done hard
    | .error (.notFound _) => .done none
    | .error error => .raise error

/-- The loop of `_await_hard`, when the clock allows a number of further readings. -/
def awaitHardLoop (quota : QuotaName) (tenantId : String) (expected : ℤ) :
    ℕ → Run ApiError (Bool × Option ℤ)
  | 0 => do
    let last ← readHard quota tenantId
    return (decide (last = some expected), last)
  | rounds + 1 => do
    let last ← readHard quota tenantId
    if last = some expected then return (true, last)
    else awaitHardLoop quota tenantId expected rounds

/-- `_await_hard`. -/
def awaitHard (quota : QuotaName) (tenantId : String) (expected : ℤ) : Run ApiError (Bool × Option ℤ) :=
  .call (.polls readbackTimeout readbackPoll) fun rounds ↦ awaitHardLoop quota tenantId expected rounds

/-- Whether a quota which is listed is the one that was set. -/
def isListed (quota : QuotaName) (listed : List (Option String)) : Bool :=
  match quota.kind with
  | .directory => listed.any fun path ↦ decide (trim (path.getD "") = trim quota.name)
  | .user => listed.any fun user ↦ decide (user = some quota.name)

/-- Create, update and list, up to the first thing that is wrong. -/
def roundTrip (quota : QuotaName) (tenantId : String) : Run ApiError (Option String) := do
  setQuota quota tenantId check.createHard
  let (matched, seen) ← awaitHard quota tenantId check.createHard
  if !matched then
    return some (s!"after create, hard={intText seen} != {check.createHard}" ++
      check.ofUser " for " "" ++ s!" (re-read for {readbackTimeout}s)")
  setQuota quota tenantId check.enforceHard
  let (matched, seen) ← awaitHard quota tenantId check.enforceHard
  if !matched then
    return some (s!"after update, hard={intText seen} != {check.enforceHard}" ++
      check.ofUser " for " "" ++ s!" (re-read for {readbackTimeout}s)")
  let listed ← listQuotas quota.kind quota.volume tenantId
  if !isListed quota listed then
    let what := match check.kind with
      | .directory => "subdir"
      | .user => "user"
    return some (s!"{what} {quoted quota.name} not in list_{check.kind.method}s " ++
      "([" ++ ", ".intercalate (listed.map quoted) ++ "])")
  return none

/-- The handler around the round trip: the check of user quotas passes on that they are refused. -/
def isCaught (error : ApiError) : Bool :=
  match check.kind with
  | .directory => error.isStorageApi
  | .user => error.isStorageApi && !error.isNotSupported

/-- What is wrong with a quota which is still read after it was deleted. -/
def stillThere (hard : Option ℤ) : Option String :=
  match check.kind with
  | .directory => some "get after delete returned a quota (delete did not remove it)"
  | .user =>
    if hard.any (0 < ·) then
      some s!"get after delete still reports hard={intText hard} for user {quoted check.probeUser}"
    else none

/-- The end of the round trip, which deletes the quota and reads it once more. -/
def deleteAgain (name : String) (quota : QuotaName) (tenantId : String) : Run ApiError Bool :=
  let failed message : Run ApiError Bool :=
    report { name := name, passed := false, message := message }
  let passed : Run ApiError Bool := report {
    name := name
    passed := true
    message := match check.kind with
      | .directory => s!"create({check.createHard}) -> update({check.enforceHard}) -> list -> " ++
          "delete round-trip verified"
      | .user => s!"user {quoted check.probeUser}: create({check.createHard}) -> " ++
          s!"update({check.enforceHard}) -> list -> delete verified" }
  .call (.deleteQuota quota (some tenantId) .roundTrip) fun
    | .error error =>
      if error.isStorageApi then failed s!"delete raised {error.typeName}: {error.text}"
      else .raise error
    | .ok () => .call (.getQuota quota tenantId) fun
      | .error (.notFound _) => passed
      | .error error =>
        if error.isStorageApi then failed s!"get after delete raised {error.typeName}: {error.text}"
        else .raise error
      | .ok hard =>
        match check.stillThere hard with
        | some message => failed message
        | none => passed

/-- `_run_crud`. -/
def runCrud (tag : String) (quota : QuotaName) (tenantId : String) : Run ApiError Bool := do
  let name := s!"{check.kind.subtest}-crud[{tag}]"
  match ← (check.roundTrip quota tenantId).attempt with
  | .ok none => check.deleteAgain name quota tenantId
  | .ok (some message) => report { name := name, passed := false, message := message }
  | .error error =>
    if check.isCaught error then
      report {
        name := name, passed := false, message := s!"CRUD raised {error.typeName}: {error.text}" }
    else .raise error

/-! ## Enforcement -/

def hardMib : ℕ := max 1 (check.enforceHard / mib).toNat

def underMib : ℕ := max 1 (check.hardMib / 4)

def chunkMib : ℕ := max 16 check.hardMib

def capMib : ℕ := max (check.hardMib * 6) (check.hardMib + 512)

/-- The loop of writes which should be refused. -/
def overWrites (check : Check) (writer : String → ℕ → String) (dir : String) (written chunk : ℕ)
    (last : CommandResult) : Run ε (CommandResult × ℕ) :=
  if written < check.capMib then
    .call (.write (writer s!"{dir}/over_{chunk + 1}" check.chunkMib) check.chunkMib) fun result ↦
      if result.exitCode ≠ 0 then .done (result, written)
      else check.overWrites writer dir (written + check.chunkMib) (chunk + 1) result
  else .done (last, written)
termination_by check.capMib - written
decreasing_by
  have : 16 ≤ check.chunkMib := Nat.le_max_left 16 _
  omega

/-- The verdict on the last write. -/
def verdict (last : CommandResult) (written : ℕ) : Bool × String :=
  let blocked := last.exitCode ≠ 0
  let combined := check.host.lower s!"{last.stdout}\n{last.stderr}"
  let rightReason := enospcTokens.any fun token ↦ Text.contains combined token
  if blocked ∧ rightReason = true then
    (true, check.ofUser "" " " ++ s!"limit {check.hardMib} MiB enforced: writes blocked after " ++
      s!"~{written} MiB with a no-space/quota error")
  else if blocked then
    (false, "over-limit write failed but not with a no-space/quota error: " ++
      brief (check.host.strip combined))
  else
    (false, match check.kind with
      | .directory => s!"wrote ~{written} MiB into a {check.hardMib} MiB quota without being blocked" ++
          " - not enforced"
      | .user => s!"wrote ~{written} MiB as user {quoted check.probeUser} into a {check.hardMib} MiB quota" ++
          " without being blocked")

/-- The writes of `_run_enforcement`, with what they show. -/
def writePastLimit (writer : String → ℕ → String) (dir : String) : Run ε (Bool × String) :=
  .call (.write (writer s!"{dir}/under" check.underMib) check.underMib) fun under ↦
    if under.exitCode ≠ 0 then
      .done (false, s!"below-limit write ({check.underMib} MiB, limit {check.hardMib} MiB)" ++
        check.ofUser " as " "" ++ s!" failed: {check.failureText under}")
    else do
      let (last, written) ← check.overWrites writer dir check.underMib 0 under
      return check.verdict last written

/-- The subtest `_run_enforcement` reports. -/
def enforcement (tag : String) (quota : QuotaName) (tenantId : String) (dir : String)
    (writer : String → ℕ → String) : Run ApiError Subtest :=
  let name := s!"{check.kind.subtest}-enforcement[{tag}]"
  .call (.setQuota quota tenantId check.enforceHard) fun
    | .ok () => do
      let (passed, message) ← check.writePastLimit writer dir
      return { name := name, passed := passed, message := message }
    | .error error =>
      if check.kind = .user ∧ error.isNotSupported = true then
        .done {
          name := name
          passed := true
          message := s!"provider refused user quotas on this volume: {error.text}"
          skipped := true }
      else if error.isStorageApi then
        .done {
          name := name
          passed := false
          message := s!"set_{check.kind.method} raised {error.typeName}: {error.text}" }
      else .raise error

/-- `_run_enforcement`. -/
def runEnforcement (tag : String) (quota : QuotaName) (tenantId : String) (dir : String)
    (writer : String → ℕ → String) : Run ApiError Bool := do
  report (← check.enforcement tag quota tenantId dir writer)

/-! ## Acquiring a volume -/

/-- The shell command by which `_dd` and `_dd_local` write. -/
def ddInner (path : String) (count : ℕ) : String :=
  s!"dd if=/dev/zero of={Shlex.quote path} bs=1M count={count} 2>&1; ec=$?; sync; exit $ec"

/-- The path under a local mount at which `_dd_local` writes. -/
def localPath (mountDir relpath : String) : String :=
  .ofList (mountDir.toList.rdropWhile (· == '/')) ++ "/" ++ trimLeft relpath

/-- The text of `_exec`. -/
def execText (namespace_ podName inner : String) : String :=
  s!"{check.kubectl} exec -n {Shlex.quote namespace_} {Shlex.quote podName} " ++
    s!"-- sh -c {Shlex.quote inner}"

/-- `_get_pvc_json`, as the document or a message. -/
def getPvcJson (namespace_ pvcName : String) : Run ε (Except String Json) := do
  let result ← command
    s!"{check.kubectl} get pvc {Shlex.quote pvcName} -n {Shlex.quote namespace_} -o json"
  if result.exitCode ≠ 0 then
    let detail := check.detail result
    return .error (if detail ≠ "" then detail else s!"exit {result.exitCode}")
  let stdout := check.host.strip result.stdout
  let resource := s!"PVC {quoted pvcName}"
  if stdout = "" then return .error s!"Failed to parse {resource}: empty stdout"
  match check.host.loads stdout with
  | .error text => return .error s!"Failed to parse {resource}: {text}"
  | .ok (.obj fields) => return .ok (.obj fields)
  | .ok payload =>
    return .error s!"Failed to parse {resource}: expected JSON object, got {payload.typeName}"

/-- `(payload.get(section) or empty).get(key)`. -/
def inSection (payload : Json) (section_ key : String) : Except ApiError Json :=
  match payload with
  | .obj fields =>
    match (fields.lookup section_).filter Json.truthy with
    | none => .ok .null
    | some (.obj inner) => .ok ((inner.lookup key).getD .null)
    | some other => .error (.other "AttributeError" s!"'{other.typeName}' object has no attribute 'get'")
  | other => .error (.other "AttributeError" s!"'{other.typeName}' object has no attribute 'get'")

/-- The volume of a list whose handle or path is that of a claim. -/
def matchVolume (handle : String) (volumes : List Volume) : Option Volume :=
  volumes.find? fun volume ↦ decide (volume.csiHandle = some handle) ||
    (textOr volume.path "\x00").toList.isSuffixOf handle.toList

/-- The handle of the persistent volume behind a claim, or a message. -/
def readHandle (namespace_ pvcName : String) : Run ApiError (Except String String) := do
  match ← check.getPvcJson namespace_ pvcName with
  | .error error => return .error s!"kubectl get pvc failed: {error}"
  | .ok payload =>
    let volumeName ← .ofExcept (inSection payload "spec" "volumeName")
    let pvName := if volumeName.truthy then check.host.str volumeName else ""
    if pvName = "" then return .error "PVC has no spec.volumeName (not Bound?)"
    let jsonpath := Shlex.quote "\x7b.spec.csi.volumeHandle\x7d"
    let handleResult ← command
      s!"{check.kubectl} get pv {Shlex.quote pvName} -o jsonpath={jsonpath}"
    let handle := check.host.strip handleResult.stdout
    if handleResult.exitCode ≠ 0 ∨ handle = "" then
      return .error (s!"could not read PV {quoted pvName} csi.volumeHandle: " ++
        check.host.strip handleResult.stderr)
    return .ok handle

/-- What the lookup makes of a listing. -/
def resolved (handle : String) (volumes : List Volume) : Except String Volume :=
  match matchVolume handle volumes with
  | some volume => .ok volume
  | none => .error s!"no shim volume matches PV handle {quoted handle}"

/-- The volume of a handle: what the provider says, or else what its listing says. -/
def resolveHandle (provider : Provider) (handle : String) : Run ApiError (Except String Volume) :=
  .call (.getVolume ⟨provider.name, handle⟩ provider.tenantId) fun
    | .ok volume => .done (.ok volume)
    | .error error =>
      if !error.isStorageApi then .raise error
      else .call (.listVolumes provider.name provider.tenantId) fun
        | .error error =>
          if error.isStorageApi then .done (.error s!"list_volumes raised {error.typeName}: {error.text}")
          else .raise error
        | .ok volumes => .done (resolved handle volumes)

/-- `_resolve_volume`, as the volume or a message. -/
def resolveVolume (provider : Provider) (namespace_ pvcName : String) :
    Run ApiError (Except String Volume) := do
  match ← check.readHandle namespace_ pvcName with
  | .error message => return .error message
  | .ok handle => resolveHandle provider handle

/-- The loop of `_poll_pvc_bound`, when the clock allows a number of polls. -/
def pollPvcBoundLoop (namespace_ pvcName : String) : ℕ → Run ApiError Bool
  | 0 => return false
  | rounds + 1 => do
    let payload ← check.getPvcJson namespace_ pvcName
    let phase ← .ofExcept (match payload with
      | .ok payload => inSection payload "status" "phase"
      | .error _ => .ok .null)
    match phase with
    | .str "Bound" => return true
    | _ => pollPvcBoundLoop namespace_ pvcName rounds

/-- `_wait_pod_ready`, as a message when the pod is not. -/
def waitPodReady (namespace_ podName : String) : Run ε (Option String) := do
  let result ← command (s!"{check.kubectl} wait --for=condition=Ready " ++
    s!"--timeout={check.bindTimeout}s -n {Shlex.quote namespace_} pod/{Shlex.quote podName}")
  return if result.exitCode = 0 then none else some (check.detail result)

/-- `_launch_mount_pod`. -/
def launchMountPod (namespace_ podName pvcName : String) : Run ApiError Bool :=
  .call (.applyMountPod namespace_ podName pvcName) fun (code, _) ↦
    if code ≠ 0 then .done false
    else do
      match ← check.waitPodReady namespace_ podName with
      | some _ => return false
      | none => .call (.polls 10 2) fun rounds ↦ check.pollPvcBoundLoop namespace_ pvcName rounds

/-- `_k8s_writer_uid_error`. -/
def k8sWriterUidError (namespace_ podName : String) : Run ε (Option String) := do
  match check.host.int check.probeUser with
  | none =>
    return some (s!"probe_user={quoted check.probeUser} is not a numeric UID; " ++
      "align probe_user with the mount pod's runAsUser (id -u)")
  | some expected =>
    let result ← command (check.execText namespace_ podName "id -u")
    if result.exitCode ≠ 0 then
      return some s!"could not read mount pod uid via id -u: {check.failureText result}"
    match (Text.splitlines (check.host.strip result.stdout)).getLast?.bind check.host.int with
    | none =>
      return some s!"mount pod id -u returned {quoted result.stdout}, expected integer uid {expected}"
    | some actual =>
      if actual ≠ expected then
        return some (s!"mount pod runs as uid {actual} but probe_user is {expected}; " ++
          "align the pod runAsUser or probe_user")
      return none

/-! ## The run for one provider -/

/-- The locals of a run which its cleanup reads. -/
structure Locals where
  nsCreated : Bool := false
  pvcCreated : Bool := false
  podCreated : Bool := false
  volumeId : String := ""
  mountDir : String := ""
  mounted : Bool := false
  dir : String := ""

/-- How the body of a `try` was left: the locals, and what it returned or raised. -/
structure Exit where
  locals : Locals
  result : Except ApiError Bool

/-- A part of the body of the `try`, with the locals of its place. -/
def within (locals : Locals) (part : Run ApiError α) : Run Exit α :=
  part.mapError fun error ↦ ⟨locals, .error error⟩

/-- Leave the body with the value of a report. -/
def leave (locals : Locals) (part : Run ApiError Bool) : Run Exit α := do
  let passed ← within locals part
  .raise ⟨locals, .ok passed⟩

/-- The name of a directory of the run, under which its quota is set or its files are written. -/
def workdir (runId : String) : String := s!"isvtest-{check.kind.short}-{runId}"

/-- The quota a run sets on a volume. -/
def quotaOn (provider : Provider) (runId volumeId : String) : QuotaName where
  kind := check.kind
  volume := ⟨provider.name, volumeId⟩
  name := match check.kind with
    | .directory => check.workdir runId
    | .user => check.probeUser

/-- The round trip and the writes on a mounted volume. The pod must run as the user whose quota is
tried; a local mount is not asked. -/
def probe (tag : String) (locals : Locals) (quota : QuotaName) (tenantId dir : String)
    (uidError : Run ApiError (Option String)) (writer : String → ℕ → String) : Run Exit Exit := do
  let crudOk ← within locals (check.runCrud tag quota tenantId)
  match ← within locals uidError with
  | some mismatch =>
    leave locals (report {
      name := s!"{check.kind.subtest}-enforcement[{tag}]", passed := false, message := mismatch })
  | none =>
    let enforceOk ← within locals (check.runEnforcement tag quota tenantId dir writer)
    return ⟨locals, .ok (crudOk && enforceOk)⟩

/-- The claim and the pod of a run; the names of supplied ones are given. -/
structure Workload where
  namespace_ : String
  podName : String
  pvcName : String

/-- The namespace and the claim, unless a claim is supplied. -/
def provisionPvc (tag : String) (workload : Workload) (locals : Locals) : Run Exit Locals :=
  if check.pvcName ≠ "" then .done locals
  else do
    let created ← command s!"{check.kubectl} create namespace {Shlex.quote workload.namespace_}"
    if created.exitCode ≠ 0 then
      leave locals (check.failBoth tag s!"failed to create namespace {quoted workload.namespace_}")
    else
      let locals := { locals with nsCreated := true }
      .call (.applyPvc workload.namespace_ workload.pvcName) fun (code, _) ↦
        if code ≠ 0 then
          leave locals (check.failBoth tag
            s!"failed to provision PVC {quoted workload.pvcName} on {quoted check.storageClass}")
        else .done { locals with pvcCreated := true }

/-- The pod which mounts the claim, unless one is supplied. -/
def mountPod (tag : String) (workload : Workload) (locals : Locals) : Run Exit Locals :=
  if check.podName ≠ "" then do
    match ← check.waitPodReady workload.namespace_ workload.podName with
    | none => return locals
    | some text =>
      leave locals (check.failBoth tag
        (s!"supplied pod {quoted workload.podName} in namespace {quoted workload.namespace_} is not Ready: " ++
          text))
  else do
    let ready ← within locals
      (check.launchMountPod workload.namespace_ workload.podName workload.pvcName)
    if ready then return { locals with podCreated := true }
    else leave locals (check.failBoth tag s!"mount pod {quoted workload.podName} did not become Ready")

/-- The body of the `try` of `_exercise_provider_k8s`. -/
def tryK8s (provider : Provider) (runId : String) (workload : Workload) : Run Exit Exit := do
  let tag := provider.name
  let dir := check.workdir runId
  -- the check of user quotas names its directory before the `try`
  let locals : Locals := { dir := if check.kind = .user then dir else "" }
  let locals ← check.provisionPvc tag workload locals
  let locals ← check.mountPod tag workload locals
  match ← within locals (check.resolveVolume provider workload.namespace_ workload.pvcName) with
  | .error error =>
    leave locals (check.failBoth tag
      s!"could not resolve shim volume for PVC {quoted workload.pvcName}: {error}")
  | .ok volume =>
    let quota := check.quotaOn provider runId volume.id
    .call (.acquired quota) fun _ ↦ do
      let locals := { locals with volumeId := volume.id, dir := dir }
      let mk ← command (check.execText workload.namespace_ workload.podName
        s!"mkdir -p /data/{Shlex.quote dir}")
      if mk.exitCode ≠ 0 then
        leave locals (check.failBoth tag s!"mkdir /data/{dir} failed: {check.detail mk}")
      else
        let uidError := match check.kind with
          | .directory => .done none
          | .user => check.k8sWriterUidError workload.namespace_ workload.podName
        check.probe tag locals quota volume.tenantId dir uidError fun path count ↦
          check.execText workload.namespace_ workload.podName (ddInner s!"/data/{path}" count)

/-- How both cleanups delete the quota: errors of the storage interface are passed over. -/
def dropQuota (quota : QuotaName) (tenantId : Option String) : Run ApiError Unit :=
  .call (.deleteQuota quota tenantId .cleanup) fun
    | .ok () => .done ()
    | .error error => if error.isStorageApi then .done () else .raise error

/-- Whether a cleanup has a quota to delete. -/
def hasQuota (locals : Locals) : Bool :=
  match check.kind with
  | .directory => locals.dir != "" && locals.volumeId != ""
  | .user => locals.volumeId != ""

/-- A step of a cleanup, under a condition. -/
def step (condition : Prop) [Decidable condition] (part : Run ε Unit) : Run ε Unit :=
  if condition then part else .done ()

/-- A command whose result is not looked at. -/
def perform (text : String) : Run ε Unit := .call (.command text) fun _ ↦ .done ()

/-- What `_cleanup` does when the namespace is not its own. -/
def cleanupSteps (provider : Provider) (runId : String) (workload : Workload) (locals : Locals) :
    Run ApiError Unit := do
  step (check.hasQuota locals) (dropQuota (check.quotaOn provider runId locals.volumeId) provider.tenantId)
  step (locals.dir ≠ "" ∧ workload.podName ≠ "") (perform (check.execText workload.namespace_
    workload.podName s!"rm -rf /data/{Shlex.quote locals.dir}"))
  step locals.podCreated (perform (s!"{check.kubectl} delete pod {Shlex.quote workload.podName} " ++
    s!"-n {Shlex.quote workload.namespace_} --wait=false --ignore-not-found=true"))
  step locals.pvcCreated (perform (s!"{check.kubectl} delete pvc {Shlex.quote workload.pvcName} " ++
    s!"-n {Shlex.quote workload.namespace_} --wait=false --ignore-not-found=true"))

/-- `_cleanup`, whose handler takes any exception. -/
def cleanup (provider : Provider) (runId : String) (workload : Workload) (locals : Locals) :
    Run ε Unit :=
  if locals.nsCreated then
    perform (s!"{check.kubectl} delete namespace {Shlex.quote workload.namespace_} " ++
      "--wait=false --ignore-not-found=true")
  else (check.cleanupSteps provider runId workload locals).attempt.bind fun _ ↦ .done ()

/-- The handler of the check of user quotas, which skips a volume where they are not supported. -/
def handled (tag : String) (exit : Exit) : Run ApiError Exit := do
  match check.kind, exit.result with
  | .user, .error (.notSupported text) =>
    let passed ← check.skipBoth tag s!"provider refused user quotas on this volume: {text}"
    return { exit with result := .ok passed }
  | _, _ => return exit

/-- A body, its handler and its cleanup, in this order. -/
def tryFinally (tag : String) (body : Run Exit Exit) (cleanup : Locals → Run ApiError Unit) :
    Run ApiError Bool := do
  let exit := match ← body.attempt with
    | .ok exit => exit
    | .error exit => exit
  let exit ← check.handled tag exit
  cleanup exit.locals
  .ofExcept exit.result

/-- `_exercise_provider_k8s`. -/
def exerciseProviderK8s (provider : Provider) : Run ApiError Bool :=
  if check.storageClass = "" ∧ check.pvcName = "" then
    check.skipBoth provider.name "no storage_class or pvc_name configured to acquire a Kubernetes volume"
  else .call .uuid fun runId ↦
    let probeName := s!"{check.kind.short}-probe-{runId}"
    let workload : Workload := {
      namespace_ := if check.pvcName ≠ "" then check.pvcNamespace else s!"{check.nsPrefix}-{runId}"
      podName := if check.podName ≠ "" then check.podName else probeName
      pvcName := if check.pvcName ≠ "" then check.pvcName else probeName }
    check.tryFinally provider.name (check.tryK8s provider runId workload)
      (check.cleanup provider runId workload)

/-- `_mount_native_volume`. -/
def mountNativeVolume (mount : MountSpec) (mountDir : String) : Run ε Bool := do
  let options := match mount.options.filter (· ≠ "") with
    | some text => s!" -o {Shlex.quote text}"
    | none => ""
  let result ← command (s!"mount -t {Shlex.quote mount.fsType}{options} " ++
    s!"{Shlex.quote mount.source} {Shlex.quote mountDir}")
  return result.exitCode = 0

/-- The body of the `try` of `_exercise_provider_native`, on a volume which was created. -/
def tryNative (provider : Provider) (runId : String) (volume : Volume) : Run Exit Exit :=
  let tag := provider.name
  let dir := check.workdir runId
  let locals : Locals := { volumeId := volume.id, dir := if check.kind = .user then dir else "" }
  match volume.mount with
  | none =>
    leave locals (check.skipBoth tag
      "native volume created but returned no mount instructions (Volume.mount is None)")
  | some mount => do
    let mountDir ← within locals
      (.call (.mkdtemp s!"{check.nsPrefix}-{runId}-") .ofExcept)
    let locals := { locals with mountDir := mountDir }
    if !(← mountNativeVolume mount mountDir) then
      leave locals (check.failBoth tag
        s!"failed to mount native volume {quoted volume.id} at {quoted mountDir}")
    else
      let locals := { locals with mounted := true, dir := dir }
      let target := Shlex.quote s!"{mountDir}/{dir}"
      let mk ← command s!"mkdir -p {target}"
      if mk.exitCode ≠ 0 then
        leave locals (check.failBoth tag s!"mkdir {mountDir}/{dir} failed: {check.detail mk}")
      else
        check.probe tag locals (check.quotaOn provider runId volume.id) volume.tenantId dir (.done none)
          fun path count ↦ ddInner (localPath mountDir path) count

def cleanupNativeSteps (provider : Provider) (runId : String) (locals : Locals) :
    Run ApiError Unit := do
  let target := Shlex.quote s!"{locals.mountDir}/{locals.dir}"
  step (check.hasQuota locals) (dropQuota (check.quotaOn provider runId locals.volumeId) provider.tenantId)
  step (locals.mounted ∧ locals.dir ≠ "") (perform s!"rm -rf {target}")
  step locals.mounted (perform s!"umount {Shlex.quote locals.mountDir}")
  step (locals.mountDir ≠ "") (perform s!"rmdir {Shlex.quote locals.mountDir}")
  step (locals.volumeId ≠ "")
    (.call (.deleteVolume ⟨provider.name, locals.volumeId⟩ provider.tenantId) .ofExcept)

/-- `_cleanup_native`, whose handler takes any exception. -/
def cleanupNative (provider : Provider) (runId : String) (locals : Locals) : Run ε Unit :=
  (check.cleanupNativeSteps provider runId locals).attempt.bind fun _ ↦ .done ()

/-- `_exercise_provider_native`. -/
def exerciseProviderNative (provider : Provider) : Run ApiError Bool :=
  .call .uuid fun runId ↦
    .call (.createVolume provider.name check.volumeSize provider.volumeType provider.tenantId
        (check.workdir runId)) fun
      | .error error =>
        check.failBoth provider.name s!"native create_volume raised {error.typeName}: {error.text}"
      | .ok volume => .call (.acquired (check.quotaOn provider runId volume.id)) fun _ ↦
        check.tryFinally provider.name (check.tryNative provider runId volume)
          (check.cleanupNative provider runId)

/-- `_exercise_provider`. -/
def exerciseProvider (provider : Provider) : Run ApiError Bool :=
  if check.k8sAvailable ∧ !provider.nativeLifecycle then check.exerciseProviderK8s provider
  else if provider.nativeLifecycle then check.exerciseProviderNative provider
  else if check.k8sAvailable then check.exerciseProviderK8s provider
  else check.skipBoth provider.name ("no reachable Kubernetes cluster and provider does not declare " ++
    "native volume.create/delete")

/-- The loop of `run` over the providers which declare the quotas, and whether any of them failed. -/
def exerciseProviders : List Provider → Run ApiError Bool
  | [] => return false
  | provider :: rest => do
    let passed ← check.exerciseProvider provider
    let anyFailed ← exerciseProviders rest
    return !passed || anyFailed

end Check

end IsvValidation.Storage.QuotaProbe
