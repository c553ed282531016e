import IsvValidation.Host.Text
import IsvValidation.Library.Execution
import IsvValidation.Library.Occurrence

/-!
# The probe of conditional forwarding

The probe appends a zone of its own to the Corefile of the cluster, queries a name of the zone, and takes the
zone out again. Both changes are patches which test the identity and the text of what they were made from. What
is to be undone is registered before it is done, and undone whether or not the probe fails.
-/

namespace IsvValidation.K8s.Forwarding

open Config Host Library Library.Program

/-! ## Commands -/

/-- What an exception is, as far as it is told apart. -/
inductive Kind where
  | prerequisite
  | runtime
  | os
  | subprocess
  | value
  | key
  | type
  | http
  | other
  deriving DecidableEq

structure Error where
  kind : Kind
  text : String
  deriving DecidableEq

/-- What the callers of the callbacks catch. -/
def Error.isCleanup (error : Error) : Bool :=
  [Kind.runtime, .os, .subprocess, .value, .key, .type].contains error.kind

/-- What fails the probe. -/
def Error.isFailure (error : Error) : Bool := error.isCleanup || error.kind == .http

/-- What is reported, and does not go on after the callbacks. -/
def Error.isReported (error : Error) : Bool := error.kind == .prerequisite || error.isFailure

/-- What is tried again. -/
def Error.isRetried (error : Error) : Bool := [Kind.runtime, .os, .http].contains error.kind

/-- The ConfigMap of CoreDNS, with the other entries of its data. -/
structure ConfigMap where
  uid : String
  corefile : Option String := none
  others : List (String × String) := []
  deriving DecidableEq

/-- One operation of a JSON patch. -/
inductive PatchOp where
  | testUid (value : String)
  | testCorefile (value : String)
  | replaceCorefile (value : String)
  deriving DecidableEq

/-- What a patch is sent for; this is not sent. -/
inductive Purpose where
  | install
  | restore
  deriving DecidableEq

structure Service where
  clusterIp : Option String := none
  clusterIps : List String := []
  deriving DecidableEq

structure Volume where
  name : String
  configMap : String
  mountPath : String
  readOnly : Bool

/-- What the probe creates in its own namespace. -/
inductive Fixture where
  | pod (name image : String) (command : List String) (volumes : List Volume)
  | configMap (name corefile : String)
  | service (name selector : String) (port target : ℕ) (protocol : String)

/-- What is asked of `kubectl`. How often a callback is retried is up to the clock. -/
inductive Call where
  | getConfigMap (name namespace_ : String)
  | listConfigMaps (namespace_ : String)
  | patchConfigMap (purpose : Purpose) (name namespace_ : String) (patch : List PatchOp)
  | getService (name namespace_ : String)
  | createNamespace (name : String)
  | deleteNamespace (name : String)
  | create (namespace_ : String) (fixture : Fixture)
  | waitReady (pod namespace_ : String) (seconds : ℤ)
  | resolve (namespace_ host : String)
  | logs (pod namespace_ : String)
  | retries (seconds : ℤ)

/-- An object which is absent is none. -/
abbrev Response : Call → Type
  | .getConfigMap _ _ => Option ConfigMap
  | .getService _ _ => Option Service
  | .resolve _ _ => List String
  | .logs _ _ => String
  | .retries _ => ℕ
  | _ => Unit

abbrev Reply (call : Call) : Type := Except Error (Response call)

abbrev Run := Program Call Reply Error

/-- A command, whose failure is an exception. -/
def ask (call : Call) : Run (Response call) := invoke call

/-! ## Settings and reports -/

structure Settings where
  timeout : Option Json := none
  namespace_ : Option String := none
  configmap : Option String := none
  pythonImage : Option String := none
  corednsImage : Option String := none
  clusterDomain : Option String := none

/-- What is configured for the probe: nothing, what is no object, or its settings. -/
inductive Configuration where
  | absent
  | noObject
  | settings (settings : Settings)

/-- The machine of the probe: the value of `KUBECTL`, what is on its path, and its tables of characters. -/
structure Machine where
  kubectl : Option String := none
  isExecutable : String → Bool
  unicode : Unicode

/-- What was seen of the forwarding. -/
structure Evidence where
  query : String
  expectedAddresses : List String
  answers : List String
  forwardedQuerySeen : Bool
  controlExpected : List String
  controlAnswers : List String
  deriving DecidableEq

structure Report where
  success : Bool := false
  skipped : Bool := false
  skipReason : Option String := none
  error : Option String := none
  evidence : Option Evidence := none
  ruleRestored : Bool := false
  cleanupErrors : List String := []
  deriving DecidableEq

/-! ## Texts -/

section Texts

variable (namespace_ : String)

/-- The zone of the probe. -/
def zone : String := namespace_ ++ ".invalid"

def query : String := "canary." ++ zone namespace_

def answer : String := "198.18.0.42"

/-- The Corefile of the resolver to which the zone is forwarded. -/
def upstreamCorefile : String :=
  s!"{zone namespace_}:53 \x7b\n  hosts \x7b\n    {answer} {query namespace_}\n    ttl 1\n  \x7d\n" ++
    "  log\n  errors\n\x7d\n"

/-- The forwarding block. -/
def forwardBlock (clusterIp : String) : String :=
  s!"\n{zone namespace_}:53 \x7b\n  forward . {clusterIp}\n  errors\n\x7d\n"

end Texts

/-- What follows the newlines of a text. -/
def linesFrom : List Char → List (List Char)
  | [] => []
  | c :: rest => if c = '\n' then rest :: linesFrom rest else linesFrom rest

/-- Whether `^\s*reload(?:\s|$)` is found, line by line. -/
def reloads (unicode : Unicode) (text : String) : Bool :=
  (text.toList :: linesFrom text.toList).any fun line ↦
    let word := line.dropWhile unicode.isSpace
    "reload".toList.isPrefixOf word && (word.drop 6).head?.all unicode.isSpace

/-- `text.replace(block, "", 1)`. -/
def removeFirst (block text : String) : String := .ofList (takeOut block.toList text.toList)

/-- A list of texts as Python shows it. -/
def shownList (texts : List String) : String :=
  "[" ++ ", ".intercalate (texts.map fun text ↦ s!"'{text}'") ++ "]"

/-! ## Forwarding -/

/-- The JSON patch of `corefile_patch`. -/
def corefileOps (uid before after : String) : List PatchOp :=
  [.testUid uid, .testCorefile before, .replaceCorefile after]

/-- The ConfigMap which is patched: its name, its namespace, and its identity. -/
structure Target where
  name : String
  namespace_ : String
  uid : String

/-- `corefile_patch`. -/
def corefilePatch (purpose : Purpose) (target : Target) (before after : String) : Run Unit :=
  ask (.patchConfigMap purpose target.name target.namespace_ (corefileOps target.uid before after))

variable (machine : Machine) (settings : Settings) (namespace_ : String) (timeout : ℤ)

/-- What is known before anything is created. -/
structure Found where
  target : Target
  original : String
  controlExpected : List String

/-- `spec.clusterIPs`, or else `spec.clusterIP`. -/
def controlExpected : Option Service → Except Error (List String)
  | none => .error ⟨.key, "'spec'"⟩
  | some service =>
    if service.clusterIps ≠ [] then .ok service.clusterIps
    else match service.clusterIp with
      | some clusterIp => .ok [clusterIp]
      | none => .error ⟨.key, "'clusterIP'"⟩

/-- Up to the creation of the namespace. -/
def examine : Run Found := do
  let name := settings.configmap.getD "coredns"
  let coreNamespace := settings.namespace_.getD "kube-system"
  let reloadMissing : Error := ⟨.prerequisite, "CoreDNS requires the reload plugin for this probe"⟩
  -- Without a name, all are listed, and a list has no data.
  if name = "" then
    ask (.listConfigMaps coreNamespace)
    .raise reloadMissing
  else
    let config ← ask (.getConfigMap name coreNamespace)
    match config with
    | none => .raise ⟨.prerequisite, "CoreDNS ConfigMap is absent"⟩
    | some config =>
      let original := config.corefile.getD ""
      if !reloads machine.unicode original then .raise reloadMissing
      else
        let kubernetes ← ask (.getService "kubernetes" "default")
        let expected ← Program.ofExcept (controlExpected kubernetes)
        return ⟨⟨name, coreNamespace, config.uid⟩, original, expected⟩

/-- `pod`. -/
def pod (name image : String) (command : List String) (volumes : List Volume) : Run Unit := do
  ask (.create namespace_ (.pod name image command volumes))
  ask (.waitReady name namespace_ timeout)

/-- `client`. -/
def client : Run Unit :=
  pod namespace_ timeout "client" (settings.pythonImage.getD "python:3.12-alpine")
    ["python", "-c", "import time; time.sleep(3600)"] []

/-- The client, and the resolver to which the zone is forwarded. -/
def fixtures : Run Unit := do
  client settings namespace_ timeout
  ask (.create namespace_ (.configMap "upstream" (upstreamCorefile namespace_)))
  pod namespace_ timeout "upstream"
    (settings.corednsImage.getD "registry.k8s.io/coredns/coredns:v1.12.3")
    ["/coredns", "-conf", "/etc/coredns/Corefile"] [⟨"config", "upstream", "/etc/coredns", true⟩]
  ask (.create namespace_ (.service "upstream" "upstream" 53 53 "UDP"))

/-- What is created before the zone is installed; what is returned is the address of the resolver. -/
def upstream : Run String := do
  fixtures settings namespace_ timeout
  let service ← ask (.getService "upstream" namespace_)
  match service with
  | none => .raise ⟨.key, "'spec'"⟩
  | some service =>
    match service.clusterIp with
    | none => .raise ⟨.key, "'clusterIP'"⟩
    | some clusterIp => return clusterIp

/-- `lookup`. -/
def lookup : Run (List String) := do
  let answers ← ask (.resolve namespace_ (query namespace_))
  if answers ≠ [] ∧ ∀ found ∈ answers, found = answer then return answers
  else .raise ⟨.runtime, s!"Unexpected DNS answers: {shownList answers}"⟩

/-- The loop of `retry`, when the clock allows a number of further rounds. -/
def retry {α : Type} (callback : Run α) : ℕ → Run α
  | 0 => do
    let called ← callback.attempt
    match called with
    | .ok result => return result
    | .error error =>
      if error.isRetried then .raise ⟨.runtime, s!"Timed out waiting for networking probe: {error.text}"⟩
      else .raise error
  | rounds + 1 => do
    let called ← callback.attempt
    match called with
    | .ok result => return result
    | .error error => if error.isRetried then retry callback rounds else .raise error

/-- The forwarding zone is installed and queried. -/
def observe (found : Found) (block : String) : Run Evidence := do
  corefilePatch .install found.target found.original (found.original ++ block)
  let rounds ← ask (.retries timeout)
  let answers ← retry (lookup namespace_) rounds
  let logs ← ask (.logs "upstream" namespace_)
  let control ← ask (.resolve namespace_
    ("kubernetes.default.svc." ++ settings.clusterDomain.getD "cluster.local"))
  return {
    query := query namespace_
    expectedAddresses := [answer]
    answers
    forwardedQuerySeen := Text.contains logs (query namespace_)
    controlExpected := found.controlExpected
    controlAnswers := control }

/-! ## Cleaning up -/

/-- The rounds of `restore`; what is returned is whether the rule is restored. -/
def restore (target : Target) (block : String) : ℕ → Run Bool
  | 0 => return false
  | rounds + 1 => do
    let current ← ask (.getConfigMap target.name target.namespace_)
    if current.map ConfigMap.uid ≠ some target.uid then
      .raise ⟨.runtime, "CoreDNS ConfigMap was replaced; refusing to overwrite it"⟩
    else match current.bind ConfigMap.corefile with
      | none => .raise ⟨.key, if (current.map ConfigMap.others).getD [] = [] then "'data'" else "'Corefile'"⟩
      | some text =>
        if !Text.contains text block then return true
        else
          let patched ← (corefilePatch .restore target text (removeFirst block text)).attempt
          match patched with
          | .ok _ => return true
          | .error error =>
            if error.kind = .runtime ∧ rounds ≠ 0 then restore target block rounds else .raise error

/-- What is registered to be undone. -/
inductive Callback where
  | deleteNamespace (name : String)
  | restore (target : Target) (block : String)

def Callback.label : Callback → String
  | .deleteNamespace name => s!"namespace {name}"
  | .restore _ _ => "restore CoreDNS forwarding rule"

def Callback.call : Callback → Run Bool
  | .deleteNamespace name => do
    ask (.deleteNamespace name)
    return false
  | .restore target block => Forwarding.restore target block 3

/-- What the callbacks come to. -/
structure Cleanup where
  ruleRestored : Bool := false
  errors : List String := []

/-- The loop of the `finally` block. -/
def cleanUp : List Callback → Run Cleanup
  | [] => return {}
  | callback :: rest => do
    let called ← callback.call.attempt
    match called with
    | .ok ruleRestored =>
      let others ← cleanUp rest
      return { others with ruleRestored := ruleRestored || others.ruleRestored }
    | .error error =>
      if error.isCleanup then
        let others ← cleanUp rest
        return { others with errors := s!"{callback.label}: {error.text}" :: others.errors }
      else .raise error

/-! ## The run -/

/-- How the probe ends, and the callbacks it registered, in this order. -/
structure Attempt where
  outcome : Except Error Evidence
  callbacks : List Callback := []

/-- `dns_forwarding`. -/
def dnsForwarding : Run Attempt := do
  let examined ← (examine machine settings).attempt
  match examined with
  | .error error => return { outcome := .error error }
  | .ok found =>
    let begun ← (ask (.createNamespace namespace_)).attempt
    match begun with
    | .error error => return { outcome := .error error }
    | .ok _ =>
      let prepared ← (upstream settings namespace_ timeout).attempt
      match prepared with
      | .error error => return { outcome := .error error, callbacks := [.deleteNamespace namespace_] }
      | .ok clusterIp =>
        let block := forwardBlock namespace_ clusterIp
        let outcome ← (observe settings namespace_ timeout found block).attempt
        return { outcome, callbacks := [.deleteNamespace namespace_, .restore found.target block] }

/-- `Probe.timeout`. -/
def probeTimeout (settings : Settings) : Except Error ℤ :=
  match settings.timeout.getD (.int 180) with
  | .int seconds =>
    if 10 ≤ seconds ∧ seconds ≤ 600 then .ok seconds
    else .error ⟨.value, "timeout must be an integer between 10 and 600 seconds"⟩
  | _ => .error ⟨.value, "timeout must be an integer between 10 and 600 seconds"⟩

/-- What is checked before there is a probe. -/
def start : Configuration → Except Error (Settings × ℤ)
  | .absent => .error ⟨.prerequisite, "dns_forwarding has no explicit probe configuration"⟩
  | .noObject => .error ⟨.value, "Probe configuration must be an object"⟩
  | .settings settings => do
    let kubectl ← (Shlex.split ((machine.kubectl.filter (· ≠ "")).getD "kubectl")).mapError fun
      | .valueError message => ⟨.value, message⟩
      | _ => ⟨.other, ""⟩
    if !kubectl.head?.any machine.isExecutable then
      throw ⟨.prerequisite, "Selected kubectl executable is absent"⟩
    return (settings, ← probeTimeout settings)

/-- The report before the callbacks are called. -/
def reportOf : Except Error Evidence → Report
  | .ok evidence => { success := true, evidence := some evidence }
  | .error error =>
    if error.kind = .prerequisite then { skipped := true, skipReason := some error.text }
    else { error := some error.text }

/-- The report after the callbacks were called. -/
def cleanedReport (report : Report) (cleanup : Cleanup) : Report :=
  let cleaned := { report with ruleRestored := cleanup.ruleRestored }
  if cleanup.errors = [] then cleaned else { cleaned with success := false, cleanupErrors := cleanup.errors }

@[simp] theorem ruleRestored_reportOf (outcome : Except Error Evidence) :
    (reportOf outcome).ruleRestored = false := by
  rcases outcome with error | evidence
  · rw [reportOf]
    split_ifs <;> rfl
  · rfl

@[simp] theorem ruleRestored_cleanedReport (report : Report) (cleanup : Cleanup) :
    (cleanedReport report cleanup).ruleRestored = cleanup.ruleRestored := by
  rw [cleanedReport]
  split_ifs <;> rfl

/-- The errors of the callbacks are in the report. -/
@[simp] theorem cleanupErrors_cleanedReport (outcome : Except Error Evidence) (cleanup : Cleanup) :
    (cleanedReport (reportOf outcome) cleanup).cleanupErrors = cleanup.errors := by
  have hnone : (reportOf outcome).cleanupErrors = [] := by
    rcases outcome with error | evidence
    · rw [reportOf]
      split_ifs <;> rfl
    · rfl
  rw [cleanedReport]
  split_ifs with herrors
  · exact hnone.trans herrors.symm
  · rfl

/-- What is left to do after the callbacks: to report, or to go on with what was not caught. -/
def conclude (outcome : Except Error Evidence) (cleanup : Cleanup) : Run Report :=
  match outcome with
  | .ok evidence => return cleanedReport (reportOf (.ok evidence)) cleanup
  | .error error =>
    if error.isReported then return cleanedReport (reportOf (.error error)) cleanup else .raise error

/-- `run` for this probe. -/
def run (configuration : Configuration) : Run Report :=
  match start machine configuration with
  | .error error => if error.isReported then return reportOf (.error error) else .raise error
  | .ok (settings, timeout) => do
    let attempt ← dnsForwarding machine settings namespace_ timeout
    let cleanup ← cleanUp attempt.callbacks.reverse
    conclude attempt.outcome cleanup

end IsvValidation.K8s.Forwarding
