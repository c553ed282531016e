import IsvValidation.Host.Matching
import IsvValidation.Nico.ReturnNode

/-!
# What a returned node goes through

The requests of a run come in one order: the instance is read, deleted, read until it is gone, and then the
machine is read. So nothing is deleted which was not named twice and found with its machine, and the check
passes exactly where the machine was seen out of service after the instance had gone.
-/

namespace IsvValidation.Nico.Return

open Config Host Library Library.Program Repair

universe w

variable {World : Type w} {step : World → (call : Call) → Reply call → World → Prop} {world last : World}
  {trace : List (Exchange World Reply)} {machine : Machine} {args : Args} {instanceId machineId token : String}

/-! ## What exchanges say -/

/-- What comes of reading an instance. -/
def instanceRead : Except Error Json → Except Error Json
  | .ok data => .ok data
  | .error (.http 404 _) => .ok (.obj [])
  | .error error => .error error

/-- The instance is found, with its machine. -/
def Names (machine : Machine) (instanceId machineId : String) (exchange : Exchange World Reply) : Prop :=
  ∃ before token data after, exchange = ⟨before, .getInstance instanceId token, .ok data, after⟩ ∧
    data.truthy = true ∧ fieldOf machine data "machineId" = .ok machineId ∧ machineId ≠ ""

/-- The deletion of the instance is asked for, with the health issue. -/
def Deletes (instanceId : String) (exchange : Exchange World Reply) : Prop :=
  ∃ before token reply after, exchange = ⟨before, .deleteInstance instanceId token returnHealthIssue, reply, after⟩

/-- The deletion is accepted. -/
def Accepted (instanceId : String) (exchange : Exchange World Reply) : Prop :=
  ∃ before token after,
    exchange = ⟨before, .deleteInstance instanceId token returnHealthIssue, .ok (), after⟩

/-- The instance is not found, or there is nothing in the answer. -/
def Gone (instanceId : String) (exchange : Exchange World Reply) : Prop :=
  ∃ before token reply after data, exchange = ⟨before, .getInstance instanceId token, reply, after⟩ ∧
    instanceRead reply = .ok data ∧ data.truthy = false

/-- The machine has left service. -/
def Quarantined (machine : Machine) (machineId : String) (exchange : Exchange World Reply) : Prop :=
  ∃ before token data after status, exchange = ⟨before, .getMachine machineId token, .ok data, after⟩ ∧
    fieldOf machine data "status" = .ok status ∧ status ∈ quarantinedStatuses

theorem Accepted.not_quarantined {exchange : Exchange World Reply} (h : Accepted instanceId exchange) :
    ¬ Quarantined machine machineId exchange := by
  obtain ⟨before, token, after, rfl⟩ := h
  rintro ⟨_, _, _, _, _, heq, -⟩
  cases heq

/-! ## Reading -/

theorem instanceOf_spec {outcome : Except Error Json}
    (h : Execution step world (instanceOf instanceId token) trace last outcome) :
    ∃ reply, trace = [⟨world, .getInstance instanceId token, reply, last⟩] ∧ outcome = instanceRead reply := by
  obtain ⟨first, reply, middle, second, rfl, hfetch, hnext⟩ := Execution.bind_attempt h
  obtain ⟨rfl, -⟩ := Execution.invoke_iff.mp hfetch
  refine ⟨reply, ?_⟩
  unfold instanceRead
  split at hnext <;> simp only [pure_eq, Execution.done_iff, Execution.raise_iff] at hnext <;>
    obtain ⟨rfl, rfl, rfl⟩ := hnext
  · exact ⟨rfl, rfl⟩
  · exact ⟨rfl, rfl⟩
  · refine ⟨rfl, ?_⟩
    split <;> simp_all

theorem eq_ok_of_instanceRead {reply : Except Error Json} {data : Json} (h : instanceRead reply = .ok data)
    (hdata : data.truthy = true) : reply = .ok data := by
  unfold instanceRead at h
  split at h
  · exact h
  · cases h
    cases hdata
  · cases h

theorem machineStatus_spec {outcome : Except Error String}
    (h : Execution step world (machineStatus machine machineId token) trace last outcome) :
    ∃ reply, trace = [⟨world, .getMachine machineId token, reply, last⟩] ∧
      outcome = reply.bind fun data ↦ fieldOf machine data "status" := by
  obtain ⟨reply, middle, rest, -, rfl, ⟨error, rfl, rfl, rfl, rfl⟩ | ⟨data, rfl, hread⟩⟩ := Execution.invoke_bind h
  · exact ⟨.error error, rfl, rfl⟩
  · obtain ⟨rfl, rfl, rfl⟩ := Execution.ofExcept_iff.mp hread
    exact ⟨.ok data, rfl, rfl⟩

/-- The machine is seen out of service by the read which says so. -/
theorem quarantined_iff {reply : Reply (.getMachine machineId token)} :
    Quarantined machine machineId (⟨world, .getMachine machineId token, reply, last⟩ : Exchange World Reply) ↔
      ∃ status, (reply.bind fun data ↦ fieldOf machine data "status") = .ok status ∧
        status ∈ quarantinedStatuses := by
  constructor
  · rintro ⟨before, token, data, after, status, heq, hfield, hmem⟩
    cases heq
    exact ⟨status, hfield, hmem⟩
  · rintro ⟨status, hread, hmem⟩
    cases reply with
    | error error => cases hread
    | ok data => exact ⟨world, token, data, last, status, rfl, hread, hmem⟩

theorem pollDeletion_gone {rounds : ℕ}
    (h : Execution step world (pollDeletion instanceId token rounds) trace last (.ok true)) :
    ∃ exchange ∈ trace, Gone instanceId exchange := by
  induction rounds generalizing world trace with
  | zero =>
    obtain ⟨first, data, middle, second, rfl, hread, hnext⟩ := Execution.bind_ok_iff.mp h
    obtain ⟨reply, rfl, hreply⟩ := instanceOf_spec hread
    obtain ⟨-, -, hgone⟩ := Execution.done_iff.mp hnext
    have hdata : data.truthy = false := by simpa using hgone
    exact ⟨_, List.mem_append_left _ (List.mem_singleton_self _), _, _, _, _, data, rfl, hreply.symm, hdata⟩
  | succ rounds ih =>
    obtain ⟨first, data, middle, second, rfl, hread, hnext⟩ := Execution.bind_ok_iff.mp h
    obtain ⟨reply, rfl, hreply⟩ := instanceOf_spec hread
    cases hdata : data.truthy with
    | true =>
      rw [if_pos hdata] at hnext
      obtain ⟨exchange, hmem, hgone⟩ := ih hnext
      exact ⟨exchange, List.mem_append_right _ hmem, hgone⟩
    | false =>
      exact ⟨_, List.mem_append_left _ (List.mem_singleton_self _), _, _, _, _, data, rfl, hreply.symm, hdata⟩

theorem awaitDeletion_gone (h : Execution step world (awaitDeletion instanceId token) trace last (.ok true)) :
    ∃ exchange ∈ trace, Gone instanceId exchange := by
  obtain ⟨rounds, middle, rest, -, rfl, hpoll⟩ := Execution.invoke_bind_ok h
  obtain ⟨exchange, hmem, hgone⟩ := pollDeletion_gone hpoll
  exact ⟨exchange, List.mem_cons_of_mem _ hmem, hgone⟩

theorem pollQuarantine_iff {rounds : ℕ} {outcome : Except Error (Bool × String)}
    (h : Execution step world (pollQuarantine machine machineId token rounds) trace last outcome) :
    (∃ exchange ∈ trace, Quarantined machine machineId exchange) ↔ ∃ status, outcome = .ok (true, status) := by
  induction rounds generalizing world trace with
  | zero =>
    obtain ⟨error, rfl, hread⟩ | ⟨first, status, middle, second, rfl, hread, hnext⟩ := Execution.bind_iff.mp h
    · obtain ⟨reply, rfl, hreply⟩ := machineStatus_spec hread
      simp [quarantined_iff, ← hreply]
    · obtain ⟨reply, rfl, hreply⟩ := machineStatus_spec hread
      obtain ⟨rfl, -, rfl⟩ := Execution.done_iff.mp hnext
      simp [quarantined_iff, ← hreply]
  | succ rounds ih =>
    obtain ⟨error, rfl, hread⟩ | ⟨first, status, middle, second, rfl, hread, hnext⟩ := Execution.bind_iff.mp h
    · obtain ⟨reply, rfl, hreply⟩ := machineStatus_spec hread
      simp [quarantined_iff, ← hreply]
    · obtain ⟨reply, rfl, hreply⟩ := machineStatus_spec hread
      by_cases hstatus : status ∈ quarantinedStatuses
      · rw [if_pos (List.contains_iff_mem.mpr hstatus)] at hnext
        obtain ⟨rfl, -, rfl⟩ := Execution.done_iff.mp hnext
        simp [quarantined_iff, ← hreply, hstatus]
      · rw [if_neg (mt List.contains_iff_mem.mp hstatus)] at hnext
        rw [← ih hnext]
        simp [quarantined_iff, ← hreply, hstatus]

theorem awaitQuarantine_iff {outcome : Except Error (Bool × String)}
    (h : Execution step world (awaitQuarantine machine machineId token) trace last outcome) :
    (∃ exchange ∈ trace, Quarantined machine machineId exchange) ↔ ∃ status, outcome = .ok (true, status) := by
  have hpolls : ∀ {seconds reply} {after : World},
      ¬ Quarantined machine machineId (⟨world, .polls seconds, reply, after⟩ : Exchange World Reply) := by
    rintro seconds reply after ⟨_, _, _, _, _, heq, -⟩
    cases heq
  obtain ⟨reply, middle, rest, -, rfl, ⟨error, rfl, rfl, rfl, rfl⟩ | ⟨rounds, rfl, hpoll⟩⟩ := Execution.invoke_bind h
  · simp [hpolls]
  · rw [← pollQuarantine_iff hpoll]
    simp [hpolls]

/-! ## Which requests are made -/

theorem instanceOf_calls : (instanceOf instanceId token).Calls (· = .getInstance instanceId token) := by
  refine .bind (.attempt (.invoke rfl)) fun reply ↦ ?_
  split
  · exact .done _
  · exact .done _
  · exact .raise _

theorem pollDeletion_calls {rounds : ℕ} :
    (pollDeletion instanceId token rounds).Calls (· = .getInstance instanceId token) := by
  induction rounds with
  | zero => exact .bind instanceOf_calls fun _ ↦ .done _
  | succ rounds ih =>
    refine .bind instanceOf_calls fun data ↦ ?_
    split_ifs
    · exact ih
    · exact .done _

theorem awaitDeletion_calls : (awaitDeletion instanceId token).Calls fun call ↦
    call = .polls pollDeadlineSeconds ∨ call = .getInstance instanceId token :=
  .bind (.invoke (.inl rfl)) fun _ ↦ pollDeletion_calls.mono fun _ ↦ .inr

theorem pollQuarantine_calls {rounds : ℕ} :
    (pollQuarantine machine machineId token rounds).Calls (· = .getMachine machineId token) := by
  have hread : (machineStatus machine machineId token).Calls (· = .getMachine machineId token) :=
    .bind (.invoke rfl) fun _ ↦ .ofExcept _
  induction rounds with
  | zero => exact .bind hread fun _ ↦ .done _
  | succ rounds ih =>
    refine .bind hread fun status ↦ ?_
    split_ifs
    · exact .done _
    · exact ih

theorem awaitQuarantine_calls : (awaitQuarantine machine machineId token).Calls fun call ↦
    call = .polls pollDeadlineSeconds ∨ call = .getMachine machineId token :=
  .bind (.invoke (.inl rfl)) fun _ ↦ pollQuarantine_calls.mono fun _ ↦ .inr

/-- The requests which are made once the deletion was asked for. -/
def Observes (instanceId machineId token : String) (call : Call) : Prop :=
  call = .polls pollDeadlineSeconds ∨ call = .getInstance instanceId token ∨ call = .getMachine machineId token

theorem observeQuarantine_calls {result : Result} :
    (observeQuarantine machine result machineId token).Calls (Observes instanceId machineId token) := by
  refine .bind (.attempt (awaitQuarantine_calls.mono fun _ h ↦ h.imp_right .inr)) fun observed ↦ ?_
  split <;> exact .done _

theorem observeDeletion_calls {result : Result} :
    (observeDeletion machine args result machineId token).Calls (Observes args.instanceId machineId token) := by
  refine .bind (.attempt (awaitDeletion_calls.mono fun _ h ↦ h.imp_right .inl)) fun observed ↦ ?_
  split
  · exact .done _
  · exact .done _
  · exact observeQuarantine_calls

/-! ## What the report tells -/

/-- The report says that the machine was seen out of service exactly where it was, and then names it. -/
def Tells (machine : Machine) (machineId : String) (trace : List (Exchange World Reply)) (stage : Stage) : Prop :=
  (stage.result.operation.machineQuarantined = true → stage.error = none ∧ stage.result.success = true ∧
    stage.result.skipReason = none ∧ stage.result.operation.instanceDeleted = true ∧
    stage.result.operation.machineId = some machineId) ∧
  ∀ found, (∃ exchange ∈ trace, Quarantined machine found exchange) ↔
    found = machineId ∧ stage.result.operation.machineQuarantined = true

theorem tells_of_none {stage : Stage} (htrace : ∀ found, ¬ ∃ exchange ∈ trace, Quarantined machine found exchange)
    (hstage : stage.result.operation.machineQuarantined = false) : Tells machine machineId trace stage := by
  simp [Tells, htrace, hstage]

theorem not_quarantined_of_ne {found : String}
    (hcalls : ∀ exchange ∈ trace, ∀ token, exchange.op ≠ .getMachine found token) :
    ¬ ∃ exchange ∈ trace, Quarantined machine found exchange := by
  rintro ⟨exchange, hmem, before, token, data, after, status, rfl, -⟩
  exact hcalls _ hmem token rfl

theorem observeQuarantine_tells {result : Result} {stage : Stage} (hsuccess : result.success = true)
    (hskip : result.skipReason = none) (hdeleted : result.operation.instanceDeleted = true)
    (hquarantined : result.operation.machineQuarantined = false)
    (hmachine : result.operation.machineId = some machineId)
    (h : Execution step world (observeQuarantine machine result machineId token) trace last (.ok stage)) :
    Tells machine machineId trace stage := by
  obtain ⟨first, observed, middle, second, rfl, hawait, hnext⟩ := Execution.bind_attempt h
  have hcalls := awaitQuarantine_calls.mem_trace hawait
  have hfound := awaitQuarantine_iff hawait
  have hother : ∀ found, (∃ exchange ∈ first, Quarantined machine found exchange) ↔
      found = machineId ∧ ∃ status, observed = .ok (true, status) := by
    intro found
    by_cases heq : found = machineId
    · rw [heq, hfound]
      simp
    · simp only [heq, false_and, iff_false]
      refine not_quarantined_of_ne fun exchange hmem other hop ↦ ?_
      rcases hcalls exchange hmem with hcall | hcall <;> rw [hop] at hcall
      · cases hcall
      · exact heq (Call.getMachine.inj hcall).1
  split at hnext <;> obtain ⟨rfl, -, heq⟩ := Execution.done_iff.mp hnext <;> obtain rfl := Except.ok.inj heq
  · simp [Tells, hother, hquarantined]
  · simp [Tells, hother, hsuccess, hskip, hdeleted, hmachine]
  · simp [Tells, hother, hquarantined]

/-- After its deletion was accepted the instance is gone, and then the machine is out of service. -/
def Leaves (machine : Machine) (instanceId machineId : String) (trace : List (Exchange World Reply)) : Prop :=
  ∃ gone quarantined, [gone, quarantined].Sublist trace ∧ Gone instanceId gone ∧
    Quarantined machine machineId quarantined

theorem tells_append {first second : List (Exchange World Reply)} {stage : Stage}
    (hfirst : ∀ found, ¬ ∃ exchange ∈ first, Quarantined machine found exchange)
    (hsecond : Tells machine machineId second stage) : Tells machine machineId (first ++ second) stage := by
  refine ⟨hsecond.1, fun found ↦ ?_⟩
  rw [← hsecond.2 found]
  constructor
  · rintro ⟨exchange, hmem, hseen⟩
    rcases List.mem_append.mp hmem with hmem | hmem
    · exact absurd ⟨exchange, hmem, hseen⟩ (hfirst found)
    · exact ⟨exchange, hmem, hseen⟩
  · rintro ⟨exchange, hmem, hseen⟩
    exact ⟨exchange, List.mem_append_right _ hmem, hseen⟩

theorem observeDeletion_tells {result : Result} {stage : Stage} (hsuccess : result.success = true)
    (hskip : result.skipReason = none) (hquarantined : result.operation.machineQuarantined = false)
    (hmachine : result.operation.machineId = some machineId)
    (h : Execution step world (observeDeletion machine args result machineId token) trace last (.ok stage)) :
    Tells machine machineId trace stage ∧
      (stage.result.operation.machineQuarantined = true → Leaves machine args.instanceId machineId trace) := by
  obtain ⟨first, observed, middle, second, rfl, hawait, hnext⟩ := Execution.bind_attempt h
  have hfirst : ∀ found, ¬ ∃ exchange ∈ first, Quarantined machine found exchange := by
    refine fun found ↦ not_quarantined_of_ne fun exchange hmem other hop ↦ ?_
    rcases awaitDeletion_calls.mem_trace hawait exchange hmem with hcall | hcall <;> rw [hop] at hcall <;> cases hcall
  split at hnext
  · obtain ⟨rfl, -, heq⟩ := Execution.done_iff.mp hnext
    obtain rfl := Except.ok.inj heq
    simp [tells_of_none, hfirst, hquarantined]
  · obtain ⟨rfl, -, heq⟩ := Execution.done_iff.mp hnext
    obtain rfl := Except.ok.inj heq
    simp [tells_of_none, hfirst, hquarantined]
  · obtain ⟨gone, hgone, hread⟩ := awaitDeletion_gone hawait
    have hsecond := observeQuarantine_tells (by exact hsuccess) (by exact hskip) rfl (by exact hquarantined)
      (by exact hmachine) hnext
    refine ⟨tells_append hfirst hsecond, fun hstage ↦ ?_⟩
    obtain ⟨quarantined, hmem, hseen⟩ := (hsecond.2 machineId).mpr ⟨rfl, hstage⟩
    exact ⟨gone, quarantined, (List.singleton_sublist.mpr hgone).append (List.singleton_sublist.mpr hmem), hread, hseen⟩

/-- The instance is found with its machine, its deletion is accepted, it is gone, and then the machine is out of
service. -/
def Returned (machine : Machine) (instanceId machineId : String) (trace : List (Exchange World Reply)) : Prop :=
  ∃ named deleted gone quarantined, [named, deleted, gone, quarantined].Sublist trace ∧
    Names machine instanceId machineId named ∧ Accepted instanceId deleted ∧ Gone instanceId gone ∧
    Quarantined machine machineId quarantined

theorem relinquish_tells {result : Result} {data : Json} {stage : Stage} (hsuccess : result.success = true)
    (hskip : result.skipReason = none) (hquarantined : result.operation.machineQuarantined = false)
    (h : Execution step world (relinquish machine args result data token) trace last (.ok stage)) :
    (stage.result.operation.machineQuarantined = false ∧
      ∀ found, ¬ ∃ exchange ∈ trace, Quarantined machine found exchange) ∨
    ∃ machineId deleted rest, fieldOf machine data "machineId" = .ok machineId ∧ machineId ≠ "" ∧
      trace = deleted :: rest ∧ Accepted args.instanceId deleted ∧ Tells machine machineId rest stage ∧
      (stage.result.operation.machineQuarantined = true → Leaves machine args.instanceId machineId rest) := by
  unfold relinquish at h
  split at h
  · obtain ⟨rfl, -, heq⟩ := Execution.done_iff.mp h
    obtain rfl := Except.ok.inj heq
    simp [hquarantined]
  · next machineId hfield =>
    simp only at h
    split_ifs at h with hempty
    · obtain ⟨rfl, -, heq⟩ := Execution.done_iff.mp h
      obtain rfl := Except.ok.inj heq
      simp [hquarantined]
    · obtain ⟨first, deleted, middle, second, rfl, hdelete, hnext⟩ := Execution.bind_attempt h
      obtain ⟨rfl, -⟩ := Execution.invoke_iff.mp hdelete
      split at hnext
      · obtain ⟨rfl, -, heq⟩ := Execution.done_iff.mp hnext
        obtain rfl := Except.ok.inj heq
        simp [hquarantined, Quarantined]
      · obtain ⟨hreport, hleaves⟩ := observeDeletion_tells (by exact hsuccess) (by exact hskip)
          (by exact hquarantined) rfl hnext
        exact .inr ⟨machineId, _, second, hfield, hempty, rfl, ⟨_, _, _, rfl⟩, hreport, hleaves⟩

/-- A machine which was not seen out of service is not reported so; where it was, its instance was returned. -/
theorem attemptReturn_tells {stage : Stage}
    (h : Execution step world (attemptReturn machine args) trace last (.ok stage)) :
    (stage.result.operation.machineQuarantined = false ∧
      ∀ found, ¬ ∃ exchange ∈ trace, Quarantined machine found exchange) ∨
    ∃ machineId, Tells machine machineId trace stage ∧
      (stage.result.operation.machineQuarantined = true → Returned machine args.instanceId machineId trace) := by
  obtain ⟨first, minted, middle, second, rfl, hmint, hnext⟩ := Execution.bind_attempt h
  obtain ⟨rfl, -⟩ := Execution.invoke_iff.mp hmint
  split at hnext
  · obtain ⟨rfl, -, heq⟩ := Execution.done_iff.mp hnext
    obtain rfl := Except.ok.inj heq
    simp [blankResult, Quarantined]
  · next token =>
    obtain ⟨third, fetched, between, fourth, rfl, hfetch, hthen⟩ := Execution.bind_attempt hnext
    obtain ⟨reply, rfl, hreply⟩ := instanceOf_spec hfetch
    split at hthen
    · obtain ⟨rfl, -, heq⟩ := Execution.done_iff.mp hthen
      obtain rfl := Except.ok.inj heq
      simp [blankResult, Quarantined]
    · next data =>
      split_ifs at hthen with hdata
      · obtain ⟨hstage, hnone⟩ | ⟨machineId, deleted, rest, hfield, hmachine, rfl, haccepted, hreport, hleaves⟩ :=
          relinquish_tells rfl rfl rfl hthen
        · exact .inl ⟨hstage, by simpa [Quarantined] using hnone⟩
        · obtain rfl := eq_ok_of_instanceRead hreply.symm hdata
          refine .inr ⟨machineId, ?_, fun hstage ↦ ?_⟩
          · refine tells_append (by simp [Quarantined]) (tells_append (by simp [Quarantined]) ?_)
            have hdeleted : ∀ found, ¬ ∃ exchange ∈ [deleted], Quarantined machine found exchange := by
              simp [haccepted.not_quarantined]
            exact tells_append hdeleted hreport
          · obtain ⟨gone, quarantined, hsublist, hgone, hseen⟩ := hleaves hstage
            refine ⟨⟨middle, .getInstance args.instanceId token, .ok data, between⟩, deleted, gone, quarantined, ?_,
              ⟨_, _, data, _, rfl, hdata, hfield, hmachine⟩, haccepted, hgone, hseen⟩
            exact .cons _ (.cons_cons _ (.cons_cons _ hsublist))
      · obtain ⟨rfl, -, heq⟩ := Execution.done_iff.mp hthen
        obtain rfl := Except.ok.inj heq
        simp [blankResult, Quarantined]

/-- What the report of a run says of the machine is what the run saw. -/
theorem main_tells {result : Result} (h : Execution step world (main machine args) trace last (.ok result)) :
    (result.operation.machineQuarantined = false ∧
      ∀ found, ¬ ∃ exchange ∈ trace, Quarantined machine found exchange) ∨
    ∃ machineId, Tells machine machineId trace { result } ∧
      (result.operation.machineQuarantined = true → Returned machine args.instanceId machineId trace) := by
  unfold main at h
  split at h
  · obtain ⟨rfl, -, heq⟩ := Execution.done_iff.mp h
    obtain rfl := Except.ok.inj heq
    simp [blankResult]
  · obtain ⟨first, stage, middle, second, rfl, hstage, hnext⟩ := Execution.bind_ok_iff.mp h
    have htells := attemptReturn_tells hstage
    split at hnext
    · next hnone =>
      obtain ⟨rfl, -, heq⟩ := Execution.done_iff.mp hnext
      obtain rfl := Except.ok.inj heq
      rw [List.append_nil]
      refine htells.imp_right fun ⟨machineId, ⟨htold, hfound⟩, hreturned⟩ ↦ ?_
      exact ⟨machineId, ⟨fun hresult ↦ ⟨rfl, (htold hresult).2⟩, hfound⟩, hreturned⟩
    · next error hsome =>
      split_ifs at hnext
      · obtain ⟨rfl, -, heq⟩ := Execution.done_iff.mp hnext
        obtain rfl := Except.ok.inj heq
        have hoperation : (failedResult stage.result error).operation = stage.result.operation := by
          cases error <;> rfl
        rw [List.append_nil, hoperation]
        obtain hunseen | ⟨machineId, ⟨htold, hfound⟩, -⟩ := htells
        · exact .inl hunseen
        · have hfalse : stage.result.operation.machineQuarantined = false := by
            rw [← Bool.not_eq_true]
            intro htrue
            rw [(htold htrue).1] at hsome
            cases hsome
          exact .inl ⟨hfalse, fun found hseen ↦ Bool.false_ne_true (hfalse ▸ ((hfound found).mp hseen).2)⟩
      · obtain ⟨-, -, heq⟩ := Execution.raise_iff.mp hnext
        cases heq

/-! ## The verdict -/

/-- What the check makes of the name of a machine. -/
def Identifies (machine : Machine) (machineId : String) : Prop :=
  machine.unicode.strip machineId ≠ "" ∧ machine.unicode.strip machineId ≠ unknownLabel

section Contract

variable (result : Result) (operation : Operation)

theorem get_skipped :
    result.toJson.get "skipped" = .ok (result.skipReason.map fun _ ↦ .bool true) := by
  rcases result with ⟨_, _, _, _ | _, _ | _, _ | _⟩ <;> rfl

theorem get_success : result.toJson.get "success" = .ok (some (.bool result.success)) := rfl

theorem get_operation : result.toJson.get "operation" = .ok (some result.operation.toJson) := rfl

theorem get_instanceDeleted :
    operation.toJson.get "instance_deleted" = .ok (some (.bool operation.instanceDeleted)) := rfl

theorem get_machineQuarantined :
    operation.toJson.get "machine_quarantined" = .ok (some (.bool operation.machineQuarantined)) := rfl

theorem get_machineId : operation.toJson.get "machine_id" = .ok (operation.machineId.map .str) := by
  rcases operation with ⟨_, _, _, _, _, _ | _, _ | _⟩ <;> rfl

theorem get_nodeId : operation.toJson.get "node_id" = .ok none := by
  rcases operation with ⟨_, _, _, _, _, _ | _, _ | _⟩ <;> rfl

end Contract

theorem recordLabel_operation {operation : Operation} :
    recordLabel machine operation.toJson ["machine_id", "node_id"] =
      .ok (((operation.machineId.map machine.unicode.strip).filter (· ≠ "")).getD unknownLabel) := by
  have hnode : recordLabel machine operation.toJson ["node_id"] = .ok unknownLabel := by
    rw [recordLabel, get_nodeId]
    rfl
  rw [recordLabel, get_machineId, hnode]
  cases operation.machineId with
  | none => rfl
  | some machineId =>
    by_cases hblank : machine.unicode.strip machineId = "" <;>
      simp [hblank, Bind.bind, Except.bind, Pure.pure, Except.pure, Option.filter]

theorem passes_toJson_iff {result : Result} :
    Passes machine result.toJson ↔ result.skipReason = none ∧ result.success = true ∧
      result.operation.instanceDeleted = true ∧ result.operation.machineQuarantined = true ∧
      ∃ machineId, result.operation.machineId = some machineId ∧ Identifies machine machineId := by
  have hskipReason : ∃ value, result.toJson.get "skip_reason" = .ok value := Json.get_of_isObject rfl _
  have herror : ∃ value, result.toJson.get "error" = .ok value := Json.get_of_isObject rfl _
  have hmessage : ∃ value, result.operation.toJson.get "message" = .ok value := Json.get_of_isObject rfl _
  obtain ⟨reason, hreason⟩ := hskipReason
  obtain ⟨error, herror⟩ := herror
  obtain ⟨message, hmessage⟩ := hmessage
  have htruthy : result.operation.toJson.truthy = true := rfl
  have hlabel : ∀ label : String, (∃ message, (if label = unknownLabel then
        (Except.ok (.failed (.str ("Operation reported success without identifying what it acted on " ++
          "(expected one of: machine_id, node_id)"))) : Except PyError Verdict)
      else .ok (.passed s!"Node {label} returned for maintenance")) = .ok (.passed message)) ↔
        label ≠ unknownLabel := by
    intro label
    split_ifs <;> simp_all
  unfold Passes check
  simp only [get_skipped, get_success, get_operation, get_instanceDeleted, get_machineQuarantined, hreason, herror,
    hmessage, recordLabel_operation, Bind.bind, Except.bind, Pure.pure, Except.pure, htruthy, Option.filter_some,
    if_true, Option.getD_some]
  cases result.skipReason with
  | some _ => simp [isTrue]
  | none =>
    simp only [Option.map_none, Option.any_none, Bool.false_eq_true, if_false, Option.any_some, Json.truthy]
    cases result.success with
    | false => simp
    | true =>
      cases result.operation.instanceDeleted with
      | false => simp
      | true =>
        cases result.operation.machineQuarantined with
        | false => simp
        | true =>
          simp only [Bool.not_true, Bool.false_eq_true, if_false, hlabel]
          cases result.operation.machineId with
          | none => simp
          | some machineId =>
            by_cases hblank : machine.unicode.strip machineId = "" <;> simp [hblank, Identifies, Option.filter]

/-- The check passes on what a run prints exactly where, in this order, the instance which was named was found
with its machine, its deletion was accepted, it was gone, and the machine was seen out of service. -/
theorem returnCheck_passes_iff {result : Result}
    (h : Execution step world (main machine args) trace last (.ok result)) :
    Passes machine result.toJson ↔
      ∃ machineId, Identifies machine machineId ∧ Returned machine args.instanceId machineId trace := by
  rw [passes_toJson_iff]
  obtain ⟨hfalse, hunseen⟩ | ⟨machineId, ⟨htold, hfound⟩, hreturned⟩ := main_tells h
  · constructor
    · rintro ⟨-, -, -, htrue, -⟩
      rw [hfalse] at htrue
      cases htrue
    · rintro ⟨machineId, -, _, _, _, quarantined, hsublist, -, -, -, hseen⟩
      exact absurd ⟨quarantined, hsublist.mem (by simp), hseen⟩ (hunseen machineId)
  · constructor
    · rintro ⟨-, -, -, htrue, found, hmachine, hidentifies⟩
      obtain ⟨-, -, -, -, hsome⟩ := htold htrue
      obtain rfl := Option.some.inj (hsome.symm.trans hmachine)
      exact ⟨machineId, hidentifies, hreturned htrue⟩
    · rintro ⟨found, hidentifies, _, _, _, quarantined, hsublist, -, -, -, hseen⟩
      obtain ⟨rfl, htrue⟩ := (hfound found).mp ⟨quarantined, hsublist.mem (by simp), hseen⟩
      obtain ⟨-, hsuccess, hskip, hdeleted, hsome⟩ := htold htrue
      exact ⟨hskip, hsuccess, hdeleted, htrue, found, hsome, hidentifies⟩

/-! ## What is deleted -/

/-- A request to delete an instance. -/
def Call.IsDelete : Call → Prop
  | .deleteInstance _ _ _ => True
  | _ => False

/-- Nothing is deleted, or the one instance is, after it was found with its machine. -/
def DeletesOnce (machine : Machine) (instanceId : String) (trace : List (Exchange World Reply)) : Prop :=
  (∀ exchange ∈ trace, ¬ exchange.op.IsDelete) ∨
    ∃ minted named deleted rest machineId, trace = minted :: named :: deleted :: rest ∧ ¬ minted.op.IsDelete ∧
      Names machine instanceId machineId named ∧ Deletes instanceId deleted ∧
      ∀ exchange ∈ rest, ¬ exchange.op.IsDelete

/-- After the deletion was asked for there is no second one; before, there is nothing at all. -/
theorem relinquish_deletes {result : Result} {data : Json} {outcome : Except Error Stage}
    (h : Execution step world (relinquish machine args result data token) trace last outcome) :
    trace = [] ∨ ∃ machineId deleted rest, trace = deleted :: rest ∧
      fieldOf machine data "machineId" = .ok machineId ∧ machineId ≠ "" ∧ Deletes args.instanceId deleted ∧
      ∀ exchange ∈ rest, ¬ exchange.op.IsDelete := by
  unfold relinquish at h
  split at h
  · exact .inl (Execution.done_iff.mp h).1
  · next machineId hfield =>
    simp only at h
    split_ifs at h with hempty
    · exact .inl (Execution.done_iff.mp h).1
    · obtain ⟨first, deleted, middle, second, rfl, hdelete, hnext⟩ := Execution.bind_attempt h
      obtain ⟨rfl, -⟩ := Execution.invoke_iff.mp hdelete
      refine .inr ⟨machineId, _, second, rfl, hfield, hempty, ⟨_, _, _, _, rfl⟩, ?_⟩
      split at hnext
      · simp [(Execution.done_iff.mp hnext).1]
      · intro exchange hmem hdeletes
        rcases observeDeletion_calls.mem_trace hnext exchange hmem with hcall | hcall | hcall <;>
          rw [hcall] at hdeletes <;> exact hdeletes

theorem attemptReturn_deletes {outcome : Except Error Stage}
    (h : Execution step world (attemptReturn machine args) trace last outcome) :
    DeletesOnce machine args.instanceId trace := by
  obtain ⟨first, minted, middle, second, rfl, hmint, hnext⟩ := Execution.bind_attempt h
  obtain ⟨rfl, -⟩ := Execution.invoke_iff.mp hmint
  split at hnext
  · simp [(Execution.done_iff.mp hnext).1, DeletesOnce, Call.IsDelete]
  · next token =>
    obtain ⟨third, fetched, between, fourth, rfl, hfetch, hthen⟩ := Execution.bind_attempt hnext
    obtain ⟨reply, rfl, hreply⟩ := instanceOf_spec hfetch
    split at hthen
    · simp [(Execution.done_iff.mp hthen).1, DeletesOnce, Call.IsDelete]
    · next data =>
      split_ifs at hthen with hdata
      · obtain rfl | ⟨machineId, deleted, rest, rfl, hfield, hmachine, hdeletes, hrest⟩ := relinquish_deletes hthen
        · simp [DeletesOnce, Call.IsDelete]
        · obtain rfl := eq_ok_of_instanceRead hreply.symm hdata
          exact .inr ⟨_, _, deleted, rest, machineId, rfl, id, ⟨_, _, data, _, rfl, hdata, hfield, hmachine⟩,
            hdeletes, hrest⟩
      · simp [(Execution.done_iff.mp hthen).1, DeletesOnce, Call.IsDelete]

/-- A step which neither fails nor skips saw the machine out of service. -/
def Settles (stage : Stage) : Prop :=
  stage.error = none → stage.result.success = true → stage.result.skipReason = none →
    stage.result.operation.machineQuarantined = true

theorem observeQuarantine_settles {result : Result} {stage : Stage}
    (h : Execution step world (observeQuarantine machine result machineId token) trace last (.ok stage)) :
    Settles stage := by
  obtain ⟨first, observed, middle, second, rfl, -, hnext⟩ := Execution.bind_attempt h
  split at hnext <;> obtain ⟨-, -, heq⟩ := Execution.done_iff.mp hnext <;> obtain rfl := Except.ok.inj heq <;>
    simp [Settles]

theorem observeDeletion_settles {result : Result} {stage : Stage}
    (h : Execution step world (observeDeletion machine args result machineId token) trace last (.ok stage)) :
    Settles stage := by
  obtain ⟨first, observed, middle, second, rfl, -, hnext⟩ := Execution.bind_attempt h
  split at hnext
  · obtain ⟨-, -, heq⟩ := Execution.done_iff.mp hnext
    obtain rfl := Except.ok.inj heq
    simp [Settles]
  · obtain ⟨-, -, heq⟩ := Execution.done_iff.mp hnext
    obtain rfl := Except.ok.inj heq
    simp [Settles]
  · exact observeQuarantine_settles hnext

theorem observeQuarantine_skipReason {result : Result} {stage : Stage} (hskip : result.skipReason = none)
    (h : Execution step world (observeQuarantine machine result machineId token) trace last (.ok stage)) :
    stage.result.skipReason = none := by
  obtain ⟨first, observed, middle, second, rfl, -, hnext⟩ := Execution.bind_attempt h
  split at hnext <;> obtain ⟨-, -, heq⟩ := Execution.done_iff.mp hnext <;> obtain rfl := Except.ok.inj heq <;>
    exact hskip

theorem observeDeletion_skipReason {result : Result} {stage : Stage} (hskip : result.skipReason = none)
    (h : Execution step world (observeDeletion machine args result machineId token) trace last (.ok stage)) :
    stage.result.skipReason = none := by
  obtain ⟨first, observed, middle, second, rfl, -, hnext⟩ := Execution.bind_attempt h
  split at hnext
  · obtain ⟨-, -, heq⟩ := Execution.done_iff.mp hnext
    obtain rfl := Except.ok.inj heq
    exact hskip
  · obtain ⟨-, -, heq⟩ := Execution.done_iff.mp hnext
    obtain rfl := Except.ok.inj heq
    exact hskip
  · exact observeQuarantine_skipReason (by exact hskip) hnext

/-- Once there is an instance to give up the step does not skip. -/
theorem relinquish_settles {result : Result} {data : Json} {stage : Stage} (hskip : result.skipReason = none)
    (h : Execution step world (relinquish machine args result data token) trace last (.ok stage)) :
    stage.result.skipReason = none ∧ (trace ≠ [] → Settles stage) := by
  unfold relinquish at h
  split at h
  · obtain ⟨rfl, -, heq⟩ := Execution.done_iff.mp h
    obtain rfl := Except.ok.inj heq
    simp [hskip]
  · simp only at h
    split_ifs at h
    · obtain ⟨rfl, -, heq⟩ := Execution.done_iff.mp h
      obtain rfl := Except.ok.inj heq
      simp [hskip]
    · obtain ⟨first, deleted, middle, second, rfl, -, hnext⟩ := Execution.bind_attempt h
      split at hnext
      · obtain ⟨-, -, heq⟩ := Execution.done_iff.mp hnext
        obtain rfl := Except.ok.inj heq
        simp [hskip, Settles]
      · exact ⟨observeDeletion_skipReason (by exact hskip) hnext, fun _ ↦ observeDeletion_settles hnext⟩

/-- After a deletion was asked for the step neither skips nor succeeds without having seen the machine. -/
theorem attemptReturn_settles {stage : Stage}
    (h : Execution step world (attemptReturn machine args) trace last (.ok stage))
    (hdeletes : ∃ exchange ∈ trace, exchange.op.IsDelete) :
    stage.result.skipReason = none ∧ Settles stage := by
  obtain ⟨first, minted, middle, second, rfl, hmint, hnext⟩ := Execution.bind_attempt h
  obtain ⟨rfl, -⟩ := Execution.invoke_iff.mp hmint
  split at hnext
  · simp [(Execution.done_iff.mp hnext).1, Call.IsDelete] at hdeletes
  · obtain ⟨third, fetched, between, fourth, rfl, hfetch, hthen⟩ := Execution.bind_attempt hnext
    obtain ⟨reply, rfl, -⟩ := instanceOf_spec hfetch
    split at hthen
    · simp [(Execution.done_iff.mp hthen).1, Call.IsDelete] at hdeletes
    · split_ifs at hthen
      · have hfourth : fourth ≠ [] := by
          rintro rfl
          simp [Call.IsDelete] at hdeletes
        obtain ⟨hskip, hsettles⟩ := relinquish_settles rfl hthen
        exact ⟨hskip, hsettles hfourth⟩
      · simp [(Execution.done_iff.mp hthen).1, Call.IsDelete] at hdeletes

theorem failedResult_of_exception (result : Result) {error : Error} (h : error.isException = true) :
    (failedResult result error).success = false ∧ (failedResult result error).skipReason = result.skipReason := by
  cases error with
  | interrupt _ => cases h
  | _ => exact ⟨rfl, rfl⟩

theorem confirmations_eq_none (h : confirmations args = none) :
    args.instanceId ≠ "" ∧ args.allow = some "1" := by
  unfold confirmations at h
  split_ifs at h with hinstance hallow
  exact ⟨hinstance, not_not.mp hallow⟩

/-- Without both confirmations nothing is asked for. With them one instance at most is deleted, once: the one
which was named, after it was found with its machine. From then on the step does not skip, and it succeeds only
where the instance was returned. -/
theorem main_deletesOnlyNamed {outcome : Except Error Result}
    (h : Execution step world (main machine args) trace last outcome) :
    (trace ≠ [] → args.instanceId ≠ "" ∧ args.allow = some "1") ∧
      DeletesOnce machine args.instanceId trace ∧
      ((∃ exchange ∈ trace, exchange.op.IsDelete) → ∀ result, outcome = .ok result →
        result.skipReason = none ∧
          (result.success = true → ∃ machineId, Returned machine args.instanceId machineId trace)) := by
  have htells : ∀ result, outcome = .ok result → result.operation.machineQuarantined = true →
      ∃ machineId, Returned machine args.instanceId machineId trace := by
    rintro result rfl htrue
    obtain ⟨hfalse, -⟩ | ⟨machineId, -, hreturned⟩ := main_tells h
    · rw [hfalse] at htrue
      cases htrue
    · exact ⟨machineId, hreturned htrue⟩
  unfold main at h
  split at h
  · obtain ⟨rfl, -⟩ := Execution.done_iff.mp h
    simp [DeletesOnce]
  · next hnone =>
    refine ⟨fun _ ↦ confirmations_eq_none hnone, ?_⟩
    obtain ⟨error, rfl, hraised⟩ | ⟨first, stage, middle, second, rfl, hstage, hnext⟩ := Execution.bind_iff.mp h
    · exact ⟨attemptReturn_deletes hraised, by simp⟩
    · obtain ⟨rfl, hresult⟩ : second = [] ∧ ∀ result, outcome = .ok result →
          (stage.error = none ∧ result = stage.result) ∨
            ∃ error, result = failedResult stage.result error ∧ error.isException = true := by
        split at hnext
        · next hnoError =>
          obtain ⟨hnil, -, rfl⟩ := Execution.done_iff.mp hnext
          exact ⟨hnil, fun result heq ↦ .inl ⟨hnoError, (Except.ok.inj heq).symm⟩⟩
        · next error _ =>
          split_ifs at hnext with hexception
          · obtain ⟨hnil, -, rfl⟩ := Execution.done_iff.mp hnext
            exact ⟨hnil, fun result heq ↦ .inr ⟨error, (Except.ok.inj heq).symm, hexception⟩⟩
          · obtain ⟨hnil, -, rfl⟩ := Execution.raise_iff.mp hnext
            exact ⟨hnil, by simp⟩
      rw [List.append_nil] at htells ⊢
      refine ⟨attemptReturn_deletes hstage, fun hdeletes result houtcome ↦ ?_⟩
      obtain ⟨hskip, hsettles⟩ := attemptReturn_settles hstage hdeletes
      obtain ⟨hnoError, rfl⟩ | ⟨error, rfl, hexception⟩ := hresult result houtcome
      · exact ⟨hskip, fun hsuccess ↦ htells _ houtcome (hsettles hnoError hsuccess hskip)⟩
      · obtain ⟨hfailed, hsame⟩ := failedResult_of_exception stage.result hexception
        exact ⟨hsame.trans hskip, fun hsuccess ↦ absurd (hfailed.symm.trans hsuccess) Bool.false_ne_true⟩

/-! ## A run -/

section Site

/-- A machine with ASCII text. -/
def asciiMachine : Machine := { unicode := UnicodeData.ascii.toUnicode, number := fun _ ↦ "" }

/-- A site with one instance, which deletes it and holds its machine. -/
def releases (deleted : Bool) : (call : Call) → Reply call × Bool
  | .resolveAuth => (.ok "token", deleted)
  | .getInstance _ _ =>
    (if deleted then .error (.http 404 "Not Found") else .ok (.obj [("machineId", .str "m-1")]), deleted)
  | .getMachine _ _ => (.ok (.obj [("status", .str "Maintenance")]), deleted)
  | .deleteInstance _ _ _ => (.ok (), true)
  | .polls _ => (.ok 1, deleted)

def siteArgs : Args := { siteId := "site", instanceId := "i-1", allow := some "1" }

def siteResult : Result where
  siteId := "site"
  operation :=
    { requested := true, accepted := true, instanceDeleted := true, machineQuarantined := true
      instanceId := "i-1", machineId := some "m-1" }

def siteTrace : List (Exchange Bool Reply) :=
  ((main asciiMachine siteArgs).interpret releases false).1

theorem execution_site : Execution (fun before call reply after ↦ releases before call = (reply, after)) false
    (main asciiMachine siteArgs) siteTrace true (.ok siteResult) :=
  Program.execution_interpret releases (main asciiMachine siteArgs) false

theorem returnCheck_passes_site : ∃ machineId, Identifies asciiMachine machineId ∧
    Returned asciiMachine "i-1" machineId siteTrace :=
  (returnCheck_passes_iff execution_site).mp ⟨"Node m-1 returned for maintenance", rfl⟩

theorem main_deletesOnlyNamed_site : DeletesOnce asciiMachine "i-1" siteTrace ∧
    ∃ machineId, Returned asciiMachine "i-1" machineId siteTrace := by
  obtain ⟨-, honce, hreport⟩ := main_deletesOnlyNamed execution_site
  have hdeletes : ∃ exchange ∈ siteTrace, exchange.op.IsDelete :=
    ⟨_, .tail _ (.tail _ (.head _)), trivial⟩
  exact ⟨honce, (hreport hdeletes siteResult rfl).2 rfl⟩

end Site

end IsvValidation.Nico.Return
