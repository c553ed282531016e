import IsvValidation.Imex.ComputeDomain

/-!
# Departure of a member

A check which withdraws the channel claim of one member of a formed domain, waits until its daemon is
gone and a surviving member reports it unavailable, and puts the claim back. The loops over the polls
carry what the source keeps from one poll to the next.
-/

namespace IsvValidation.Imex

open Host Library Staged

/-! ## The report of a daemon -/

/-- `IMEX_CTL_CONFIG_PATHS`. -/
def imexCtlConfigPaths : List String := ["/imexd/imexd.cfg", "/etc/nvidia-imex/config.cfg"]

/-- `_Departure`. -/
structure Departure where
  target : String
  targetIndex : Int
  observer : String
  observerIndex : Int

inductive PeerReport where
  | available
  | unavailable
  | unknown
  deriving DecidableEq

def PeerReport.text : PeerReport → String
  | available => "available"
  | unavailable => "unavailable"
  | unknown => "unknown"

/-- `_PeerView`. -/
structure PeerView where
  observerReady : Bool
  targetReported : PeerReport
  targetStatus : String
  deriving DecidableEq

def unknownPeerView : PeerView := ⟨false, .unknown, ""⟩

def padZeros (width : ℕ) (digits : String) : String :=
  .ofList (List.replicate (width - digits.length) '0' ++ digits.toList)

/-- `"compute-domain-daemon-%04d" % index`. -/
def daemonDnsName (index : Int) : String :=
  "compute-domain-daemon-" ++
    if 0 ≤ index then padZeros 4 (toString index.natAbs)
    else "-" ++ padZeros 3 (toString index.natAbs)

/-- `_peer_view`. -/
def peerView (nodes : List ReportNode) (observerIndex targetIndex : Int) : PeerView :=
  match nodes.find? fun node ↦ node.host = daemonDnsName observerIndex with
  | none => unknownPeerView
  | some own =>
    let observerReady := decide (own.status = "READY")
    match own.connections.find? fun peer ↦ peer.1 = daemonDnsName targetIndex with
    | some (_, status) =>
      ⟨observerReady, if status = "CONNECTED" then .available else .unavailable, status⟩
    | none => ⟨observerReady, if observerReady then .unavailable else .unknown, ""⟩

/-- What is kept of the observer's answers: the configuration which answered, the last view and the
last read error. -/
structure PeerReading where
  configPath : Option String
  view : PeerView := unknownPeerView
  readError : String

/-- `_unreachable`. -/
def unreachable (configPath : Option String) (departure : Departure) : PeerReading where
  configPath
  readError := departure.observer ++ "'s daemon was never reachable to ask"

/-- The loop of `_read_peer_view` over the configurations. -/
def askPaths (departure : Departure) (report : String → Reading (List ReportNode))
    (configPath : Option String) : List String → String → Except Raised PeerReading
  | [], detail =>
    .ok { configPath, readError := "could not ask " ++ departure.observer ++ "'s daemon: " ++ detail }
  | path :: rest, detail =>
    match report path with
    | .failed error =>
      askPaths departure report configPath rest (if detail = "" then error else detail)
    | .unparsable =>
      .ok
        { configPath := some path
          readError := "could not parse " ++ departure.observer ++ "'s report of the domain" }
    | .malformed message => .error (.exception message)
    | .parsed nodes =>
      .ok
        { configPath := some path
          view := peerView nodes departure.observerIndex departure.targetIndex
          readError := "" }

/-- `_read_peer_view`: the configuration which answered last is tried first. -/
def readPeerView (departure : Departure) (poll : Poll) (pod : Pod) (configPath : Option String) :
    Except Raised PeerReading :=
  let candidates := match configPath with
    | none => imexCtlConfigPaths
    | some path => path :: imexCtlConfigPaths.filter (· ≠ path)
  askPaths departure (poll.report pod) configPath candidates ""

/-! ## The departing daemon and the survivors -/

/-- `_restart_count`. -/
def restartCount (pod : Pod) : Int :=
  (pod.containerStatuses.filterMap ContainerStatus.restartCount).max?.getD 0

/-- One container of `_unclean_exit_reason`. -/
def uncleanContainer (baselineRestarts : Int) (status : ContainerStatus) : Option String :=
  let container := if status.name = "" then "container" else status.name
  match status.restartCount.filter (baselineRestarts < ·) with
  | some restarts =>
    some s!"{container} restarted {restarts - baselineRestarts} more time(s) while shutting down"
  | none =>
    match status.terminated with
    | none => none
    | some terminated =>
      match terminated.exitCode.filter fun code ↦ code ≠ 0 ∧ code ≠ 143 with
      | none => none
      | some code =>
        let named := if terminated.reason = "" then "" else s!" ({terminated.reason})"
        let forced := if code = 137 then " after its grace period expired" else ""
        some s!"{container} was killed with exit code {code}{named}{forced}"

/-- `_unclean_exit_reason`. -/
def uncleanExitReason (pod : Pod) (baselineRestarts : Int) : Option String :=
  pod.containerStatuses.findSome? (uncleanContainer baselineRestarts)

/-- `_survivor_collapse`. -/
def survivorCollapse (state : DomainState) (target : String) : Option String :=
  let survivors := state.members.keys.filter (· ≠ target)
  if survivors = [] then some "the domain accounts for no surviving members at all"
  else
    let broken := sortedNames (survivors.filter fun node ↦ ¬ isReadyMember state node)
    if broken ≠ [] then some ("surviving member(s) no longer ready: " ++ ", ".intercalate broken)
    else none

/-- The daemon which the wait for a clean departure looks at. -/
def daemonSeen (state : DomainState) (target : String) : Option Pod :=
  (state.daemons.get? target).or (state.departing.get? target)

/-! ## Who departs -/

/-- `_pick_observer`: the first other member of the target's clique. -/
def pickObserver (state : DomainState) (target : String) : Except Stop String :=
  let clique := state.cliques.get? target
  let peers := sortedNames
    (state.members.keys.filter fun node ↦ node ≠ target ∧ state.cliques.get? node = clique)
  match peers.head? with
  | none => .error (.failed (.noObserver target))
  | some observer => .ok observer

/-- `_resolve_departure`. -/
def resolveDeparture (state : DomainState) (target observer : String) : Except Stop Departure :=
  match state.indices.get? target, state.indices.get? observer with
  | some targetIndex, some observerIndex =>
    if targetIndex = observerIndex then .error (.failed (.sameIndex targetIndex target observer))
    else .ok ⟨target, targetIndex, observer, observerIndex⟩
  | _, _ =>
    .error (.failed (.unindexed (sortedNames ([target, observer].filter fun node ↦
      (state.indices.get? node).isNone))))

/-! ## The stages -/

/-- What the cluster and the configuration answer to a departure check. A patch is answered by the node
it excludes. -/
structure DepartureInput where
  formation : List Poll
  budget : Except String ℕ
  baseline : List Poll
  patch : Option String → CommandReply
  departure : List Poll
  convergence : List Poll
  restore : List Poll

/-- One reading of `_await_peer_baseline`. -/
def judgePeerBaseline (departure : Departure) (peer : PeerReading) (poll : Poll)
    (state : DomainState) : Judgement PeerReading (Except Stop (Option String)) :=
  match state.daemons.get? departure.observer with
  | none => .undecided peer
  | some pod =>
    match readPeerView departure poll pod peer.configPath with
    | .error exception => .decided (.error (.raised exception))
    | .ok peer =>
      if peer.view.observerReady ∧ peer.view.targetReported = .available then
        .decided (.ok peer.configPath)
      else .undecided peer

/-- `_report_no_baseline`. -/
def noBaseline (departure : Departure) (peer : PeerReading) : CheckFailure :=
  let detail :=
    if ¬ peer.view.observerReady then
      if peer.readError = "" then "it does not report its own daemon as READY" else peer.readError
    else
      let named := if peer.view.targetStatus = "" then "" else s!" ({peer.view.targetStatus})"
      s!"it reports {departure.target} as {peer.view.targetReported.text}{named}"
  .noBaseline departure.target departure.observer detail

/-- `_await_peer_baseline`, with the configuration which answered. -/
def awaitPeerBaseline (unicode : Unicode) (departure : Departure) (polls : List Poll) :
    Staged BodyEvent Stop (Option String) :=
  poll (.observed .peerBaseline)
    (judgeState unicode (fun peer error ↦ { peer with readError := error })
      (judgePeerBaseline departure))
    (fun peer ↦ .error (.failed (noBaseline departure peer))) (unreachable none departure) polls

/-- `_patch_claim_scope`, and the failure when it is refused. -/
def patchClaimScope (input : DepartureInput) (exclude : Option String)
    (failure : String → CheckFailure) : Staged BodyEvent Stop Unit :=
  did (.patched exclude (input.patch exclude)) <|
    match input.patch exclude with
    | .ok => .ok ()
    | .failed detail => .error (.failed (failure detail))

/-- `_report_departed`. -/
def reportDeparted (target : String) : Option String → Except Stop Unit
  | some reason => .error (.failed (.uncleanExit target reason))
  | none => .ok ()

/-- One reading of `_await_clean_departure`, which carries the first unclean exit and a detail. -/
def judgeCleanDeparture (target : String) (baselineRestarts : Int)
    (carried : Option String × String) (_ : Poll) (state : DomainState) :
    Judgement (Option String × String) (Except Stop Unit) :=
  match daemonSeen state target with
  | none => .decided (reportDeparted target carried.1)
  | some pod =>
    .undecided
      (carried.1.or (uncleanExitReason pod baselineRestarts),
        if (state.daemons.get? target).isSome then "the driver left its daemon running there"
        else "its daemon was still shutting down")

/-- `_await_clean_departure`. -/
def awaitCleanDeparture (unicode : Unicode) (target : String) (baselineRestarts : Int)
    (polls : List Poll) : Staged BodyEvent Stop Unit :=
  poll (.observed .cleanDeparture)
    (judgeState unicode (fun carried error ↦ (carried.1, error))
      (judgeCleanDeparture target baselineRestarts))
    (fun carried ↦ .error (.failed (.notDeparted target carried.2))) (none, "") polls

/-- One reading of `_await_peer_convergence`. The view of an earlier poll stands when the observer has
no daemon at this one. -/
def judgePeerConvergence (departure : Departure) (carried : PeerReading × Option String)
    (poll : Poll) (state : DomainState) :
    Judgement (PeerReading × Option String) (Except Stop Unit) :=
  if (state.daemons.get? departure.target).isSome then
    .decided (.error (.failed (.rescheduled departure.target)))
  else
    let asked : Except Raised PeerReading := match state.daemons.get? departure.observer with
      | none => .ok carried.1
      | some pod => readPeerView departure poll pod carried.1.configPath
    match asked with
    | .error exception => .decided (.error (.raised exception))
    | .ok peer =>
      let collapse := survivorCollapse state departure.target
      if peer.view.targetReported = .unavailable ∧ peer.view.observerReady ∧ collapse = none then
        .decided (.ok ())
      else .undecided (peer, collapse)

/-- `_report_not_converged`. -/
def notConverged (departure : Departure) (carried : PeerReading × Option String) : CheckFailure :=
  match carried.2, carried.1.view.targetReported with
  | some collapse, _ => .collapsed departure.target collapse
  | none, .available => .stalePeer departure.target departure.observer
  | none, .unknown =>
    .unknownPeer departure.target departure.observer carried.1.readError
  | none, .unavailable => .observerNotReady departure.target departure.observer

/-- `_await_peer_convergence`. -/
def awaitPeerConvergence (unicode : Unicode) (departure : Departure) (configPath : Option String)
    (polls : List Poll) : Staged BodyEvent Stop Unit :=
  poll (.observed .peerConvergence)
    (judgeState unicode (fun carried error ↦ ({ carried.1 with readError := error }, carried.2))
      (judgePeerConvergence departure))
    (fun carried ↦ .error (.failed (notConverged departure carried)))
    (unreachable configPath departure, none) polls

/-- One reading of `_restore`. -/
def judgeRestore (target : String) (_ : String) (_ : Poll) (state : DomainState) :
    Judgement String (Except Stop Unit) :=
  if isReadyMember state target then .decided (.ok ())
  else .undecided "it never became a ready member again"

/-- `_restore`; its failure is for a passing check only. -/
def restore (unicode : Unicode) (input : DepartureInput) (target : String) :
    Staged BodyEvent Stop Unit := do
  patchClaimScope input none fun detail ↦
    .notRestored target ("the channel claim could not be reinstated: " ++ detail)
  poll (.observed .restore) (judgeState unicode (fun _ error ↦ error) (judgeRestore target))
    (fun detail ↦ .error (.failed (.notRestored target detail))) "" input.restore

/-! ## The check -/

/-- What is known once the departure was requested. -/
structure Requested where
  departure : Departure
  baselineRestarts : Int
  configPath : Option String

/-- `_assert_on_domain` up to the request of the departure. -/
def requestDeparture (unicode : Unicode) (input : DepartureInput) :
    Staged BodyEvent Stop Requested := do
  let state ← awaitFormation unicode input.formation
  let members := state.members.keys.length
  ofExcept (if members < 2 then .error (.failed (.tooSmall members)) else .ok ())
  let target ← ofExcept (firstMember state)
  let observer ← ofExcept (pickObserver state target)
  let departure ← ofExcept (resolveDeparture state target observer)
  let _ ← derivedBudget input.budget
  let configPath ← awaitPeerBaseline unicode departure input.baseline
  let pod ← ofExcept (daemonOn state target)
  patchClaimScope input (some target) (.notWithdrawn target)
  return ⟨departure, restartCount pod, configPath⟩

/-- The `try` block of `_assert_on_domain`. -/
def observeDeparture (unicode : Unicode) (input : DepartureInput) (requested : Requested) :
    Staged BodyEvent Stop Unit := do
  awaitCleanDeparture unicode requested.departure.target requested.baselineRestarts input.departure
  awaitPeerConvergence unicode requested.departure requested.configPath input.convergence

/-- The `finally` block of `_assert_on_domain`: what a restoration leaves of a run. -/
def afterRestore (run : BodyRun BodyEvent) (restored : Staged BodyEvent Stop Unit) :
    BodyRun BodyEvent :=
  let events := run.events ++ restored.log
  match restored.outcome with
  | .ok () => { run with events }
  | .error (.failed failure) =>
    { run with events, verdict := if run.verdict.passed then run.verdict.setFailed failure else run.verdict }
  | .error (.raised exception) => { run with events, raised := some exception }

/-- `ImexDomainDepartureCheck._assert_on_domain`. -/
def departureBody (unicode : Unicode) (input : DepartureInput) (_ : ℕ) : BodyRun BodyEvent :=
  let request := requestDeparture unicode input
  match request.outcome with
  | .error (.failed failure) => { events := request.log, verdict := Verdict.setFailed {} failure }
  | .error (.raised exception) => { events := request.log, verdict := {}, raised := some exception }
  | .ok requested =>
    let run := afterRestore (.ofStages (observeDeparture unicode input requested))
      (restore unicode input requested.departure.target)
    { run with events := request.log ++ run.events }

end IsvValidation.Imex
