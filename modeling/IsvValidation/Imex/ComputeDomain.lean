import Mathlib.Data.List.Sort
import IsvValidation.Host.Text
import IsvValidation.Library.OrderedMap
import IsvValidation.Library.Polling

/-!
# Compute domains

What the DRA-model checks share: a compute domain is allocated with a claiming pod per node, handed to
the body of a check, and released. The cluster's answers come as the list of what each poll reads; how many
fit into a budget is left open. A run keeps what it did and read, in order. Durations and subtests are
left out.
-/

namespace IsvValidation.Imex

open Host Library Staged

/-! ## Replies -/

/-- How a kubectl command ends whose output is not read. -/
inductive CommandReply where
  | ok
  | failed (detail : String)
  deriving DecidableEq

/-- What comes of reading JSON from kubectl: a failed command, output which is empty or not of the
expected kind, output of a shape on which the code raises, or what is looked at. -/
inductive Reading (α : Type) where
  | failed (detail : String)
  | unparsable
  | malformed (message : String)
  | parsed (value : α)

/-- How an apply ends: the server refuses it, or commits it, and then the client may still see an error
or a timeout. -/
inductive ApplyReply where
  | refused (detail : String)
  | committed
  | lost (detail : String)
  deriving DecidableEq

namespace ApplyReply

/-- What the client sees. -/
def seen : ApplyReply → CommandReply
  | committed => .ok
  | refused detail => .failed detail
  | lost detail => .failed detail

def Commits : ApplyReply → Prop
  | refused _ => False
  | _ => True

end ApplyReply

/-! ## Observations -/

structure Terminated where
  exitCode : Option Int
  reason : String

structure ContainerStatus where
  name : String
  restartCount : Option Int
  terminated : Option Terminated

structure PodCondition where
  type : String
  status : String
  deriving DecidableEq

/-- A pod as far as it is looked at; an absent text is empty. -/
structure Pod where
  name : String
  podNamespace : String
  uid : String
  deletionTimestamp : String
  node : String
  conditions : List PodCondition
  containerStatuses : List ContainerStatus

/-- `pod_is_ready`. -/
def podIsReady (pod : Pod) : Bool :=
  pod.conditions.any fun condition ↦ condition.type = "Ready" && condition.status = "True"

/-- An entry of a domain's status. -/
structure DomainNode where
  name : String
  status : String
  index : Option Int
  cliqueId : String

structure Domain where
  uid : String
  nodes : List DomainNode

/-- One node's own report, with its peers by host and status. -/
structure ReportNode where
  host : String
  status : String
  connections : List (String × String)

/-- What one poll would read: the domain, the pods with its label, and the report of a daemon by the
path of its configuration. -/
structure Poll where
  domain : Reading Domain
  pods : Reading (List Pod)
  report : Pod → String → Reading (List ReportNode)

/-- `_DomainState`. -/
structure DomainState where
  members : OrderedMap String String
  indices : OrderedMap String Int
  cliques : OrderedMap String String
  daemons : OrderedMap String Pod
  departing : OrderedMap String Pod

/-- An exception which a check raises. -/
inductive Raised where
  | exception (message : String)
  | skip (reason : String)
  deriving DecidableEq

/-- `_daemons_by_node`. -/
def daemonsByNode (pods : List Pod) (terminating : Bool) : OrderedMap String Pod :=
  .ofList ((pods.filter fun pod ↦
    (pod.deletionTimestamp ≠ "" : Bool) = terminating && pod.node ≠ "").map fun pod ↦
      (pod.node, pod))

/-- `_is_non_empty_string`. -/
def isNonEmptyString (unicode : Unicode) (text : String) : Bool := unicode.strip text ≠ ""

/-- The state of a domain with the pods which are listed for it. -/
def domainState (unicode : Unicode) (domain : Domain) (pods : List Pod) : DomainState :=
  let nodes := domain.nodes.filter fun node ↦ isNonEmptyString unicode node.name
  { members := .ofList (nodes.map fun node ↦ (node.name, node.status))
    indices := .ofList (nodes.filterMap fun node ↦ node.index.map (node.name, ·))
    cliques := .ofList ((nodes.filter fun node ↦ isNonEmptyString unicode node.cliqueId).map
      fun node ↦ (node.name, node.cliqueId))
    daemons := daemonsByNode pods false
    departing := daemonsByNode pods true }

/-- `kubectl_items_or_empty`: a list which cannot be parsed counts as empty. -/
def itemsOrEmpty : Reading (List Pod) → Except Raised (Except String (List Pod))
  | .failed detail => .ok (.error s!"could not read the daemons: {detail}")
  | .unparsable => .ok (.ok [])
  | .malformed message => .error (.exception message)
  | .parsed pods => .ok (.ok pods)

/-- `_observe`: the state, or a read error. -/
def observe (unicode : Unicode) (poll : Poll) : Except Raised (Except String DomainState) :=
  match poll.domain with
  | .failed detail => .ok (.error s!"could not read compute domain: {detail}")
  | .unparsable => .ok (.error "could not parse compute domain")
  | .malformed message => .error (.exception message)
  | .parsed domain =>
    if domain.uid = "" then
      .ok (.error "compute domain carries no UID to match its daemons by")
    else (itemsOrEmpty poll.pods).map fun items ↦ items.map (domainState unicode domain)

/-- `_is_ready_member`. -/
def isReadyMember (state : DomainState) (node : String) : Bool :=
  state.members.get? node = some "Ready" && (state.daemons.get? node).any podIsReady

/-- Names in Python's order. -/
def sortedNames (names : List String) : List String := names.insertionSort (· ≤ ·)

@[simp] theorem mem_sortedNames {names : List String} {name : String} :
    name ∈ sortedNames names ↔ name ∈ names := List.mem_insertionSort (· ≤ ·)

@[simp] theorem sortedNames_eq_nil {names : List String} : sortedNames names = [] ↔ names = [] := by
  simp [List.eq_nil_iff_forall_not_mem]

/-! ## Verdicts -/

/-- Why a check fails; the texts are left out, what they name is kept. -/
inductive CheckFailure where
  | apiGroup (detail : String)
  | deployments (detail : String)
  | unrecognisedMode (declared : String)
  | noController
  | badConfig (message : String)
  | notCreated (what detail : String)
  | notReleased (leftovers : List (String × String))
  | notFormed (detail : String)
  | notTerminated (pod detail : String)
  | notRecovered (target : String) (rescheduled : Bool) (readError : String)
  | tooSmall (members : ℕ)
  | noObserver (target : String)
  | unindexed (nodes : List String)
  | sameIndex (index : Int) (target observer : String)
  | noBaseline (target observer detail : String)
  | notWithdrawn (target detail : String)
  | notDeparted (target detail : String)
  | uncleanExit (target reason : String)
  | rescheduled (target : String)
  | collapsed (target reason : String)
  | stalePeer (target observer : String)
  | unknownPeer (target observer readError : String)
  | observerNotReady (target observer : String)
  | notRestored (target detail : String)
  | raised (message : String)
  deriving DecidableEq

/-- What `set_passed` and `set_failed` write. -/
structure Verdict where
  passed : Bool := false
  failure : Option CheckFailure := none
  deriving DecidableEq

namespace Verdict

def setPassed (verdict : Verdict) : Verdict := { verdict with passed := true }

def setFailed (_ : Verdict) (failure : CheckFailure) : Verdict := ⟨false, some failure⟩

end Verdict

/-- How a stage stops a check. -/
inductive Stop where
  | failed (failure : CheckFailure)
  | raised (exception : Raised)
  deriving DecidableEq

/-! ## Formation -/

/-- `_formation_detail`. -/
def formationDetail (unserved unready : List String) : String :=
  "; ".intercalate
    ((if unserved ≠ [] then ["no daemon on " ++ ", ".intercalate unserved] else []) ++
      if unready ≠ [] then ["not ready on " ++ ", ".intercalate unready] else [])

/-- The members without a daemon. -/
def unservedMembers (state : DomainState) : List String :=
  state.members.keys.filter fun node ↦ (state.daemons.get? node).isNone

/-- The members with a daemon which are not ready. -/
def unreadyMembers (state : DomainState) : List String :=
  state.members.keys.filter fun node ↦
    (state.daemons.get? node).isSome && !isReadyMember state node

/-- The waits of the checks. -/
inductive Wait where
  | formation
  | recovery
  | peerBaseline
  | cleanDeparture
  | peerConvergence
  | restore
  deriving DecidableEq

/-- What the body of a check does and reads. -/
inductive BodyEvent where
  | observed (wait : Wait) (poll : Poll)
  | terminated (pod : Pod) (reply : CommandReply)
  | patched (exclude : Option String) (reply : CommandReply)

/-- A loop over `_poll`: `unread` is what it carries on when the cluster could not be read. -/
def judgeState {σ α : Type} (unicode : Unicode) (unread : σ → String → σ)
    (judge : σ → Poll → DomainState → Judgement σ (Except Stop α)) (carried : σ) (poll : Poll) :
    Judgement σ (Except Stop α) :=
  match observe unicode poll with
  | .error exception => .decided (.error (.raised exception))
  | .ok (.error error) => .undecided (unread carried error)
  | .ok (.ok state) => judge carried poll state

def judgeFormation (_ : String) (_ : Poll) (state : DomainState) :
    Judgement String (Except Stop DomainState) :=
  if state.members.keys = [] then
    .undecided "the domain reported no members, so there was nothing to assert against"
  else if unservedMembers state = [] ∧ unreadyMembers state = [] then .decided (.ok state)
  else
    .undecided (formationDetail (sortedNames (unservedMembers state))
      (sortedNames (unreadyMembers state)))

/-- `_await_formation`. -/
def awaitFormation (unicode : Unicode) (polls : List Poll) : Staged BodyEvent Stop DomainState :=
  poll (.observed .formation) (judgeState unicode (fun _ error ↦ error) judgeFormation)
    (fun detail ↦ .error (.failed (.notFormed detail))) "" polls

/-- `min` of names. -/
def leastName (first : String) (rest : List String) : String :=
  rest.foldl (fun least name ↦ if name < least then name else least) first

/-- `min(state.members)`. -/
def firstMember (state : DomainState) : Except Stop String :=
  match state.members.keys with
  | [] => .error (.raised (.exception "min() iterable argument is empty"))
  | first :: rest => .ok (leastName first rest)

/-- `state.daemons[node]`. -/
def daemonOn (state : DomainState) (node : String) : Except Stop Pod :=
  match state.daemons.get? node with
  | none => .error (.raised (.exception ("KeyError: " ++ node)))
  | some pod => .ok pod

/-- At this reading the domain had members, and all of them were ready and served by a ready daemon. -/
def Formed (unicode : Unicode) (poll : Poll) (state : DomainState) : Prop :=
  observe unicode poll = .ok (.ok state) ∧ state.members.keys ≠ [] ∧
    ∀ node ∈ state.members.keys, isReadyMember state node

theorem leastName_mem (first : String) (rest : List String) :
    leastName first rest ∈ first :: rest := by
  induction rest generalizing first with
  | nil => simp [leastName]
  | cons name rest ih =>
    have hmem := ih (if name < first then name else first)
    rw [leastName, List.foldl_cons, ← leastName]
    by_cases hlt : name < first
    · rw [if_pos hlt] at hmem ⊢
      exact List.mem_cons_of_mem first hmem
    · rw [if_neg hlt] at hmem ⊢
      exact List.mem_cons.mpr ((List.mem_cons.mp hmem).imp_right (List.mem_cons_of_mem name))

theorem firstMember_mem {state : DomainState} {node : String} (h : firstMember state = .ok node) :
    node ∈ state.members.keys := by
  unfold firstMember at h
  split at h
  · cases h
  next first rest hkeys =>
    rw [hkeys, ← Except.ok.inj h]
    exact leastName_mem first rest

theorem daemonOn_eq {state : DomainState} {node : String} {pod : Pod}
    (h : daemonOn state node = .ok pod) : state.daemons.get? node = some pod := by
  unfold daemonOn at h
  split at h
  · cases h
  next found hfound => rw [hfound, Except.ok.inj h]

/-- A loop returns by a reading of the cluster on which it returns. -/
theorem judgeState_decided_iff {σ α : Type} {unicode : Unicode} {unread : σ → String → σ}
    {judge : σ → Poll → DomainState → Judgement σ (Except Stop α)} {carried : σ} {poll : Poll}
    {result : α} :
    judgeState unicode unread judge carried poll = .decided (.ok result) ↔
      ∃ state, observe unicode poll = .ok (.ok state) ∧
        judge carried poll state = .decided (.ok result) := by
  unfold judgeState
  split <;> simp_all

/-- What a loop carries on comes from a failed reading or from a state. -/
theorem judgeState_undecided_iff {σ α : Type} {unicode : Unicode} {unread : σ → String → σ}
    {judge : σ → Poll → DomainState → Judgement σ (Except Stop α)} {carried next : σ} {poll : Poll} :
    judgeState unicode unread judge carried poll = .undecided next ↔
      (∃ error, observe unicode poll = .ok (.error error) ∧ unread carried error = next) ∨
        ∃ state, observe unicode poll = .ok (.ok state) ∧
          judge carried poll state = .undecided next := by
  unfold judgeState
  split <;> simp_all

/-- A formation which was awaited comes with the reading which showed it. -/
theorem awaitFormation_returns {unicode : Unicode} {polls : List Poll} {log : List BodyEvent}
    {state : DomainState} (h : (awaitFormation unicode polls).Returns log state) :
    ∃ before reading, log = before ++ [.observed .formation reading] ∧ Formed unicode reading state := by
  obtain ⟨before, reading, _, detail, _, _, hdecided, hlog⟩ :=
    returns_poll (fun detail ↦ by simp) h
  have ⟨found, hobserved, hjudged⟩ := judgeState_decided_iff.mp hdecided
  refine ⟨before.map (.observed .formation), reading, hlog, ?_⟩
  unfold judgeFormation at hjudged
  split at hjudged
  · simp at hjudged
  next hmembers =>
    split at hjudged
    next hready =>
      simp only [Judgement.decided.injEq, Except.ok.injEq] at hjudged
      rw [hjudged] at hobserved hmembers hready
      refine ⟨hobserved, hmembers, fun node hnode ↦ ?_⟩
      have hserved := List.filter_eq_nil_iff.mp hready.1 node hnode
      have hunready := List.filter_eq_nil_iff.mp hready.2 node hnode
      grind
    · simp at hjudged

/-! ## The frame of a check -/

/-- A container of a deployment: its command, and its environment by name with literal values. -/
structure Container where
  command : List String
  env : List (String × Option String)

/-- What a run does: the commands which create and release with their replies, and in between what the
body does. -/
inductive RunEvent (ε : Type) where
  | applyDomain (reply : ApplyReply)
  | applyClaims (reply : ApplyReply)
  | body (event : ε)
  | deleteClaims (reply : CommandReply)
  | deleteDomain (reply : CommandReply)

/-- Configuration and replies around the body. -/
structure CheckInput where
  apiResources : Except String (List String)
  containers : Reading (List Container)
  formationTimeout : Except String ℕ
  applyDomain : ApplyReply
  applyClaims : ApplyReply
  deleteClaims : CommandReply
  deleteDomain : CommandReply

/-- What the body of a check did, the verdict where it ended, and what it raised. -/
structure BodyRun (ε : Type) where
  events : List ε := []
  verdict : Verdict
  raised : Option Raised := none

structure CheckRun (ε : Type) where
  events : List (RunEvent ε) := []
  verdict : Verdict
  raised : Option Raised := none

/-- `_derived_budget`: only a configured value can be wrong. -/
def derivedBudget {ω : Type} (budget : Except String ℕ) : Staged ω Stop ℕ :=
  ofExcept <|
    match budget with
    | .error message => .error (.failed (.badConfig message))
    | .ok seconds => .ok seconds

/-- A body which passes where its stages end. -/
def BodyRun.ofStages {ε : Type} (stages : Staged ε Stop Unit) : BodyRun ε :=
  match stages.outcome with
  | .ok () => { events := stages.log, verdict := Verdict.setPassed {} }
  | .error (.failed failure) => { events := stages.log, verdict := Verdict.setFailed {} failure }
  | .error (.raised exception) =>
    { events := stages.log, verdict := {}, raised := some exception }

def computeDomainCrd : String := "computedomains.resource.nvidia.com"

/-- `_declared_ownership_mode`. -/
def declaredOwnershipMode (containers : Reading (List Container)) : Except Stop String :=
  match containers with
  | .failed detail => .error (.failed (.deployments detail))
  | .unparsable => .error (.failed (.deployments "unparsable"))
  | .malformed message => .error (.raised (.exception message))
  | .parsed containers =>
    match containers.find? fun item ↦ item.command.contains "compute-domain-controller" with
    | none => .error (.failed .noController)
    | some container =>
      let declared := match (container.env.lookup "IMEX_MODE").join.filter (· ≠ "") with
        | some mode => mode
        | none => "driverManaged"
      if declared = "driverManaged" ∨ declared = "hostManaged" then .ok declared
      else .error (.failed (.unrecognisedMode declared))

/-- What comes before the apply of the domain. -/
def beforeAllocation (input : CheckInput) : Except Stop ℕ :=
  match input.apiResources with
  | .error detail => .error (.failed (.apiGroup detail))
  | .ok names =>
    if ¬ names.contains computeDomainCrd then
      .error (.raised (.skip "no multi-node NVLink capability"))
    else
      match declaredOwnershipMode input.containers with
      | .error stop => .error stop
      | .ok mode =>
        if mode = "hostManaged" then .error (.raised (.skip "operator-run host service"))
        else
          match input.formationTimeout with
          | .error message => .error (.failed (.badConfig message))
          | .ok timeout => .ok timeout

/-- `_release`: both deletions are attempted, and leftovers fail a passing check. -/
def release (input : CheckInput) (verdict : Verdict) : Verdict :=
  let leftover (what : String) : CommandReply → List (String × String)
    | .ok => []
    | .failed detail => [(what, detail)]
  let leftovers := leftover "daemonset" input.deleteClaims ++
    leftover computeDomainCrd input.deleteDomain
  if leftovers ≠ [] ∧ verdict.passed then verdict.setFailed (.notReleased leftovers) else verdict

theorem BodyRun.ofStages_passed {ε : Type} {stages : Staged ε Stop Unit}
    (h : (ofStages stages).verdict.passed) : stages.Returns (ofStages stages).events () := by
  cases houtcome : stages.outcome with
  | ok => exact ⟨by simp [ofStages, houtcome], houtcome⟩
  | error stop => cases stop <;> simp [ofStages, houtcome, Verdict.setFailed] at h

variable {ε : Type}

/-- The `try` block of `run`: the claims, and then the body. -/
def claimAndAssert (input : CheckInput) (body : BodyRun ε) : CheckRun ε :=
  match input.applyClaims.seen with
  | .failed detail =>
    { events := [.applyClaims input.applyClaims]
      verdict := Verdict.setFailed {} (.notCreated "channel claims" detail) }
  | .ok =>
    { events := .applyClaims input.applyClaims :: body.events.map .body
      verdict := body.verdict
      raised := body.raised }

/-- `run`. -/
def runCheck (input : CheckInput) (body : ℕ → BodyRun ε) : CheckRun ε :=
  match beforeAllocation input with
  | .error (.failed failure) => { verdict := Verdict.setFailed {} failure }
  | .error (.raised exception) => { verdict := {}, raised := some exception }
  | .ok timeout =>
    match input.applyDomain.seen with
    | .failed detail =>
      { events := [.applyDomain input.applyDomain]
        verdict := Verdict.setFailed {} (.notCreated "compute domain" detail) }
    | .ok =>
      let run := claimAndAssert input (body timeout)
      { events := .applyDomain input.applyDomain :: run.events ++
          [.deleteClaims input.deleteClaims, .deleteDomain input.deleteDomain]
        verdict := release input run.verdict
        raised := run.raised }

/-- `execute`: whether a check ends PASSED; an exception fails it, and a skip is no verdict. -/
def CheckRun.endsPassed (run : CheckRun ε) : Bool := run.verdict.passed && run.raised.isNone

/-- What the server committed is released before the run ends, the claims before the domain, and a run
ends PASSED only if both deletions reported success. -/
def CheckRun.HandsBack (run : CheckRun ε) : Prop :=
  ∀ before after reply, ApplyReply.Commits reply →
    run.events = before ++ .applyDomain reply :: after ∨
      run.events = before ++ .applyClaims reply :: after →
    ∃ first claims second domain last,
      after = first ++ .deleteClaims claims :: second ++ .deleteDomain domain :: last ∧
        (run.endsPassed → claims = .ok ∧ domain = .ok)

section Runs

variable {input : CheckInput} (body : ℕ → BodyRun ε) {timeout : ℕ}

theorem runCheck_of_refused (hbefore : beforeAllocation input = .ok timeout) {detail : String}
    (hseen : input.applyDomain.seen = .failed detail) :
    (runCheck input body).events = [.applyDomain input.applyDomain] ∧
      (runCheck input body).endsPassed = false := by
  simp [runCheck, hbefore, hseen, CheckRun.endsPassed, Verdict.setFailed]

theorem runCheck_of_stopped {stop : Stop} (hbefore : beforeAllocation input = .error stop) :
    (runCheck input body).events = [] ∧ (runCheck input body).endsPassed = false := by
  cases stop <;> simp [runCheck, hbefore, CheckRun.endsPassed, Verdict.setFailed]

theorem runCheck_of_applied (hbefore : beforeAllocation input = .ok timeout)
    (hseen : input.applyDomain.seen = .ok) :
    runCheck input body =
      { events := .applyDomain input.applyDomain :: (claimAndAssert input (body timeout)).events ++
          [.deleteClaims input.deleteClaims, .deleteDomain input.deleteDomain]
        verdict := release input (claimAndAssert input (body timeout)).verdict
        raised := (claimAndAssert input (body timeout)).raised } := by
  simp [runCheck, hbefore, hseen]

/-- A verdict which is passed after the release was passed before it, and both deletions succeeded. -/
theorem release_passed {verdict : Verdict} (h : (release input verdict).passed) :
    verdict.passed ∧ input.deleteClaims = .ok ∧ input.deleteDomain = .ok := by
  unfold release at h
  cases hclaims : input.deleteClaims <;> cases hdomain : input.deleteDomain <;>
    cases hpassed : verdict.passed <;> simp_all [Verdict.setFailed]

/-- A run which ends PASSED applied everything, its body passed, and everything was deleted. -/
theorem runCheck_endsPassed (h : (runCheck input body).endsPassed) :
    ∃ timeout, (body timeout).verdict.passed ∧ (body timeout).raised = none ∧
      input.deleteClaims = .ok ∧ input.deleteDomain = .ok ∧
      (runCheck input body).events = .applyDomain input.applyDomain ::
        .applyClaims input.applyClaims :: (body timeout).events.map .body ++
          [.deleteClaims input.deleteClaims, .deleteDomain input.deleteDomain] := by
  cases hbefore : beforeAllocation input with
  | error stop => simp [(runCheck_of_stopped body hbefore).2] at h
  | ok timeout =>
    cases hdomain : input.applyDomain.seen with
    | failed detail => simp [(runCheck_of_refused body hbefore hdomain).2] at h
    | ok =>
      rw [runCheck_of_applied body hbefore hdomain] at h ⊢
      have ⟨hverdict, hraised⟩ := Bool.and_eq_true_iff.mp h
      have ⟨hpassed, hdeleted⟩ := release_passed hverdict
      refine ⟨timeout, ?_⟩
      cases hclaims : input.applyClaims.seen with
      | failed detail => simp [claimAndAssert, hclaims, Verdict.setFailed] at hpassed
      | ok =>
        simp only [claimAndAssert, hclaims] at hpassed hraised ⊢
        exact ⟨hpassed, Option.isNone_iff_eq_none.mp hraised, hdeleted.1, hdeleted.2, trivial⟩

/-- An element which is not among the last two stands before them. -/
theorem eq_append_pair {α : Type} {before after front : List α} {item first second : α}
    (h : before ++ item :: after = front ++ [first, second]) (hfirst : item ≠ first)
    (hsecond : item ≠ second) : ∃ middle, after = middle ++ [first, second] := by
  rcases List.append_eq_append_iff.mp h with ⟨rest, _, hrest⟩ | ⟨rest, _, hrest⟩
  · cases rest with
    | nil => simp_all
    | cons head rest => exact ⟨rest, (List.cons.inj hrest).2⟩
  · match rest with
    | [] => simp_all
    | [_] => simp_all
    | [_, _] => simp_all
    | _ :: _ :: _ :: _ => simp_all

/-- Where the client sees the apply of the domain as the server does, a run hands back. -/
theorem runCheck_handsBack
    (h : ∀ timeout detail, beforeAllocation input = .ok timeout → input.applyDomain ≠ .lost detail) :
    (runCheck input body).HandsBack := by
  intro before after reply hcommits hsplit
  cases hbefore : beforeAllocation input with
  | error stop => simp [(runCheck_of_stopped body hbefore).1] at hsplit
  | ok timeout =>
    cases hdomain : input.applyDomain with
    | lost detail => exact absurd hdomain (h timeout detail hbefore)
    | refused detail =>
      have hseen : input.applyDomain.seen = .failed detail := by rw [hdomain]; rfl
      have hevents := (runCheck_of_refused body hbefore hseen).1
      rw [hevents, hdomain] at hsplit
      have hreply : .refused detail = reply := by cases before <;> simp_all
      exact (hreply ▸ hcommits).elim
    | committed =>
      have hrun := runCheck_of_applied body hbefore (by rw [hdomain]; rfl)
      have hpassed : (runCheck input body).endsPassed →
          input.deleteClaims = .ok ∧ input.deleteDomain = .ok := fun hends ↦ by
        have ⟨_, _, _, hclaims, hdelete, _⟩ := runCheck_endsPassed body hends
        exact ⟨hclaims, hdelete⟩
      have hafter : ∃ middle, after =
          middle ++ [.deleteClaims input.deleteClaims, .deleteDomain input.deleteDomain] := by
        rw [hrun] at hsplit
        rcases hsplit with hsplit | hsplit <;>
          exact eq_append_pair hsplit.symm (by simp) (by simp)
      have ⟨middle, hmiddle⟩ := hafter
      exact ⟨middle, input.deleteClaims, [], input.deleteDomain, [], by simpa using hmiddle, hpassed⟩

end Runs

end IsvValidation.Imex
