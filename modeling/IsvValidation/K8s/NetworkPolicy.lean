import IsvValidation.Host.Quoting
import IsvValidation.K8s.VersionSupport
import IsvValidation.Library.Execution
import IsvValidation.Validation.Report

/-!
# The check of network policies

Two clients probe two servers before and after policies are applied which leave one client one server. The
check waits until each path which is denied stops connecting, and then probes every path once more for each
address family of the server. All it knows of a probe is an exit code.
-/

namespace IsvValidation.K8s.NetworkPolicy

open Host Library Validation

/-! ## Calls -/

inductive Family where
  | ipv4
  | ipv6
  deriving DecidableEq

def Family.text : Family → String
  | ipv4 => "IPv4"
  | ipv6 => "IPv6"

/-- From a client to an address of a server. -/
structure Path where
  client : String
  target : String
  host : String
  deriving DecidableEq

/-- A probe runs in the pod of the client and connects or not, or it does not run. -/
inductive Outcome where
  | connected
  | blocked
  | notRun
  deriving DecidableEq

inductive Manifest where
  | pods
  | ingress
  | egress
  deriving DecidableEq

/-- What a run does. How often a loop polls is up to the clock. -/
inductive Call where
  | command (text : String)
  | apply (manifest : Manifest)
  | getPod (pod command : String)
  | probe (path : Path) (command : String) (timeout : ℤ)
  | polls (seconds : ℤ)

/-- What comes back: of a pod the `ip` of each entry under `status.podIPs`, of `kubectl apply` its error. -/
abbrev Reply : Call → Type
  | .command _ => CommandResult
  | .apply _ => Except String Unit
  | .getPod _ _ => Except String (List (Option String))
  | .probe _ _ _ => Outcome
  | .polls _ => ℕ

/-- A part of a run, which ends with a value or with the error of the check. -/
abbrev Run := Program Call Reply String

/-! ## The check -/

/-- The settings of a check, and how it tells addresses of the two families. -/
structure Check where
  kubectl : String
  ns : String
  probePort : ℤ := 8080
  probeTimeout : ℤ := 10
  settleTimeout : ℤ := 30
  timeout : ℕ := 300
  testEgress : Bool := true
  family : String → Option Family

namespace Check

variable (check : Check)

def applyManifest (manifest : Manifest) : Run Unit := .call (.apply manifest) .ofExcept

def failIf (condition : Bool) (message : String) : Run Unit := if condition then .raise message else .done ()

def waitReady : Run Unit :=
  .call (.command (s!"{check.kubectl} wait --for=condition=Ready --timeout={check.timeout}s " ++
    s!"-n {Shlex.quote check.ns} pod/server pod/other-server pod/allowed-client pod/denied-client")) fun result ↦
    let detail := if result.stderr ≠ "" then result.stderr else result.stdout
    failIf (result.exitCode ≠ 0) s!"Probe pods did not become Ready: {detail}"

/-- `_get_pod_ips`; a pod which cannot be read has no addresses. -/
def getPodIps (pod : String) : Run (List String) :=
  .call (.getPod pod s!"{check.kubectl} get pod {Shlex.quote pod} -n {Shlex.quote check.ns} -o json") fun
    | .error _ => .done []
    | .ok entries => .done (entries.filterMap fun entry ↦ entry.filter (· ≠ ""))

def ofFamily (family : Family) (ips : List String) : List String :=
  ips.filter fun ip ↦ check.family ip = some family

/-- The command of a probe. -/
def probeCommand (path : Path) : String :=
  let literal := if check.family path.host = some .ipv6 then s!"[{path.host}]" else path.host
  let target := s!"{literal}:{check.probePort}"
  s!"{check.kubectl} exec -n {Shlex.quote check.ns} {Shlex.quote path.client} " ++
    s!"-- /agnhost connect {Shlex.quote target} --timeout={check.probeTimeout}s"

/-- `_probe`: a probe which did not connect and one which did not run look the same. -/
def probe (path : Path) : Run Bool :=
  .call (.probe path (check.probeCommand path) (max (check.probeTimeout + 10) 30)) fun outcome ↦
    .done (outcome = .connected)

/-- All addresses are reached before the policies. -/
def baseline (client target : String) : List String → Run Unit
  | [] => return
  | ip :: rest => do
    let reached ← check.probe ⟨client, target, ip⟩
    failIf (!reached) s!"Baseline connectivity broken - CNI issue? {client} could not reach {target} at {ip}"
    baseline client target rest

/-- The loop of `_wait_for_policy_enforcement`, when the clock allows a number of rounds. -/
def waitForPolicyEnforcement (path : Path) : ℕ → Run Bool
  | 0 => return false
  | rounds + 1 => do
    let reached ← check.probe path
    if !reached then return true else waitForPolicyEnforcement path rounds

/-- Every path which is denied stops connecting. -/
def settle : List Path → Run Unit
  | [] => return
  | path :: rest =>
    .call (.polls check.settleTimeout) fun rounds ↦ do
      let enforced ← check.waitForPolicyEnforcement path rounds
      failIf (!enforced) (s!"NetworkPolicy did not take effect within {check.settleTimeout}s " ++
        s!"({path.client} still reaches {path.target} at {path.host})")
      settle rest

def allowPath (ip : String) : Path := ⟨"allowed-client", "server", ip⟩
def ingressPath (ip : String) : Path := ⟨"denied-client", "server", ip⟩
def egressPath (ip : String) : Path := ⟨"allowed-client", "other-server", ip⟩

/-- The paths which are polled: the first address of each family. -/
def denyProbes (server other : List String) : List Path :=
  ((check.ofFamily .ipv4 server).head?.map ingressPath).toList ++
    ((check.ofFamily .ipv6 server).head?.map ingressPath).toList ++
    if check.testEgress then
      ((check.ofFamily .ipv4 other).head?.map egressPath).toList ++
        ((check.ofFamily .ipv6 other).head?.map egressPath).toList
    else []

/-- A family of the server, with its first address and the first one of the other server. -/
structure Covered where
  family : Family
  serverIp : String
  otherIp : Option String

/-- The families the server has an address of. -/
def families (server other : List String) : List Covered :=
  [Family.ipv4, Family.ipv6].filterMap fun family ↦
    (check.ofFamily family server).head?.map fun serverIp ↦
      ⟨family, serverIp, (check.ofFamily family other).head?⟩

/-- `_report_probe`, with the flag that a probe was not as expected. -/
def reportProbe (state : Report × Bool) (name : String) (path : Path) (succeeded expectSuccess : Bool) :
    Report × Bool :=
  let matched := succeeded == expectSuccess
  let expected := if expectSuccess then "success" else "timeout"
  let actual := if succeeded then "success" else "timeout"
  (state.1.reportSubtest name matched (s!"{path.client} -> {path.target}@{path.host}:{check.probePort} " ++
    s!"(expected {expected}, got {actual})"), state.2 || !matched)

/-- The last probe of the egress path, where there is an address for it. -/
def checkEgress (covered : Covered) (state : Report × Bool) : Run (Report × Bool) :=
  let name := s!"egress-deny[{covered.family.text}]"
  if check.testEgress then
    match covered.otherIp with
    | some ip => do
      let reached ← check.probe (egressPath ip)
      return check.reportProbe state name (egressPath ip) reached false
    | none => return (state.1.reportSubtest name true
        s!"other-server has no {covered.family.text} address; egress check skipped" true, state.2)
  else return state

/-- The last probes of a family. -/
def checkFamily (covered : Covered) (state : Report × Bool) : Run (Report × Bool) := do
  let allowed ← check.probe (allowPath covered.serverIp)
  let state := check.reportProbe state s!"allow[{covered.family.text}]" (allowPath covered.serverIp) allowed true
  let denied ← check.probe (ingressPath covered.serverIp)
  let state :=
    check.reportProbe state s!"ingress-deny[{covered.family.text}]" (ingressPath covered.serverIp) denied false
  check.checkEgress covered state

def checkFamilies : List Covered → Report × Bool → Run (Report × Bool)
  | [], state => return state
  | covered :: rest, state => do
    let state ← check.checkFamily covered state
    checkFamilies rest state

/-- The verdict. -/
def finish (families : List Covered) (state : Report × Bool) : Report :=
  if state.2 then state.1.setFailed "One or more NetworkPolicy subtests failed; see subtest details"
  else
    let covered := families.map fun covered ↦ covered.family.text
    let listed := " + ".intercalate covered
    let suffix := if covered.length = 1 then s!" ({listed} only)" else s!" ({listed})"
    state.1.setPassed s!"NetworkPolicy enforcement verified{suffix}"

/-- The probes before the policies. -/
def baselines (server other : List String) : Run Unit := do
  check.baseline "allowed-client" "server" server
  check.baseline "denied-client" "server" server
  if check.testEgress then check.baseline "allowed-client" "other-server" other

def applyPolicies : Run Unit := do
  applyManifest .ingress
  if check.testEgress then applyManifest .egress

/-- What a run does with the addresses of the servers. -/
def verify (server other : List String) : Run Report := do
  failIf (server = []) "Failed to read server pod IPs"
  failIf (check.testEgress && other = []) "Failed to read other-server pod IPs"
  check.baselines server other
  check.applyPolicies
  check.settle (check.denyProbes server other)
  let families := check.families server other
  let state ← check.checkFamilies families ({}, false)
  return finish families state

/-- The part of a run in its namespace. -/
def body : Run Report := do
  applyManifest .pods
  check.waitReady
  let server ← check.getPodIps "server"
  let other ← check.getPodIps "other-server"
  check.verify server other

/-- `K8sNetworkPolicyCheck.run`; the cleanup does not change the outcome. -/
def run : Program Call Reply Empty Report :=
  .call (.command s!"{check.kubectl} create namespace {Shlex.quote check.ns}") fun created ↦
    if created.exitCode ≠ 0 then
      .done (Report.setFailed {} s!"Failed to create namespace {check.ns}: {created.stderr}")
    else do
      let outcome ← check.body.attempt
      .call (.command (s!"{check.kubectl} delete namespace {Shlex.quote check.ns} " ++
        "--wait=false --ignore-not-found=true")) fun _ ↦
        .done (match outcome with
          | .ok report => report
          | .error message => Report.setFailed {} message)

end Check

end IsvValidation.K8s.NetworkPolicy
