import Mathlib.Order.BooleanAlgebra.Set
import Mathlib.Data.Set.Insert
import IsvValidation.Host.Runtime
import IsvValidation.Aws.TopologyBlock

/-!
# What an allocation leaves behind

The resources which a run of the topology block allocation has made exist until an accepted call
terminates, cancels or deletes them. An error reply of the service means that a call was not
performed; after an exception on the client's side it may have been.
-/

namespace IsvValidation.Aws

open Host Library

/-! ## The service -/

inductive CloudResource where
  | compute (instanceId : String)
  | reservation (reservationId : String)
  | group (groupName : String)
  deriving DecidableEq

/-- The resources of a run which exist. -/
abbrev Cloud := Set CloudResource

abbrev BlockExchange := Exchange Cloud BlockReply

def computes (instanceIds : List String) : Cloud :=
  {r | ∃ instanceId ∈ instanceIds, r = .compute instanceId}

namespace BlockCall

/-- What a performed call makes. -/
def makes : (call : BlockCall) → call.Response → Cloud
  | createPlacementGroup groupName _, _ => {.group groupName}
  | createCapacityReservation _, reservationId => {.reservation reservationId}
  | runInstances _, (instanceIds : List String) => computes instanceIds
  | _, _ => ∅

/-- What a performed call terminates, cancels or deletes. -/
def removes : BlockCall → Cloud
  | terminateInstances instanceIds => computes instanceIds
  | cancelCapacityReservation reservationId => {.reservation reservationId}
  | deletePlacementGroup groupName => {.group groupName}
  | _ => ∅

def performed (call : BlockCall) (response : call.Response) (cloud : Cloud) : Cloud :=
  (cloud ∪ call.makes response) \ call.removes

def creates : BlockCall → Bool
  | createPlacementGroup _ _ | createCapacityReservation _ | runInstances _ => true
  | _ => false

def cleansUp : BlockCall → Bool
  | terminateInstances _ | waitInstanceTerminated _ | cancelCapacityReservation _
  | deletePlacementGroup _ => true
  | _ => false

/-- The codes which say that what a call removes does not exist. -/
def goneCodes : BlockCall → List String
  | terminateInstances _ => instanceAlreadyGoneCodes
  | cancelCapacityReservation _ => capacityReservationAlreadyGoneCodes
  | deletePlacementGroup _ => placementGroupAlreadyGoneCodes
  | _ => []

theorem makes_eq_empty {call : BlockCall} (h : call.creates = false) (response : call.Response) :
    call.makes response = ∅ := by
  cases call <;> first | rfl | cases h

theorem removes_eq_empty {call : BlockCall} (h : call.cleansUp = false) : call.removes = ∅ := by
  cases call <;> first | rfl | cases h

theorem goneCodes_eq_nil {call : BlockCall} (h : call.cleansUp = false) : call.goneCodes = [] := by
  cases call <;> first | rfl | cases h

theorem creates_eq_false {call : BlockCall} (h : call.cleansUp = true) : call.creates = false := by
  cases call <;> first | rfl | cases h

end BlockCall

/-- What a call does: it is performed and returns, or it raises an error, and then it is performed at
most if the error is not a reply of the service. -/
def CloudStep (cloud : Cloud) (call : BlockCall) (reply : BlockReply call) (after : Cloud) : Prop :=
  match reply with
  | .ok response => after = call.performed response cloud
  | .error error => after = cloud ∨
      error.code? = none ∧ ∃ response, after = call.performed response cloud

theorem CloudStep.grows {cloud after : Cloud} {call : BlockCall} {reply : BlockReply call}
    (h : CloudStep cloud call reply after) (hcall : call.cleansUp = false) : cloud ⊆ after := by
  have hperformed : ∀ response, cloud ⊆ call.performed response cloud := by
    intro response r hr
    simp [BlockCall.performed, BlockCall.removes_eq_empty hcall, hr]
  match reply, h with
  | .ok response, h => exact h ▸ hperformed response
  | .error _, .inl h => exact h ▸ subset_rfl
  | .error _, .inr ⟨_, response, h⟩ => exact h ▸ hperformed response

theorem CloudStep.shrinks {cloud after : Cloud} {call : BlockCall} {reply : BlockReply call}
    (h : CloudStep cloud call reply after) (hcall : call.cleansUp = true) :
    after ⊆ cloud ∧ cloud \ call.removes ⊆ after := by
  have hperformed : ∀ response, call.performed response cloud = cloud \ call.removes := by
    intro response
    simp [BlockCall.performed, BlockCall.makes_eq_empty (BlockCall.creates_eq_false hcall)]
  have hsubset : cloud \ call.removes ⊆ cloud := fun r hr ↦ hr.1
  match reply, h with
  | .ok response, h =>
    have h := h.trans (hperformed response)
    exact ⟨h ▸ hsubset, h ▸ subset_rfl⟩
  | .error _, .inl h => exact ⟨h ▸ subset_rfl, h ▸ hsubset⟩
  | .error _, .inr ⟨_, response, h⟩ =>
    have h := h.trans (hperformed response)
    exact ⟨h ▸ hsubset, h ▸ subset_rfl⟩

/-! ## Traces -/

namespace BlockExchange

/-- A call raised an error, other than one which says that nothing is left to remove. -/
def Refused (exchange : BlockExchange) : Prop :=
  ∃ error, exchange.reply = .error error ∧
    ∀ code ∈ exchange.op.goneCodes, error.code? ≠ some code

/-- A call was answered with a code which says that nothing is left to remove. -/
def SaysGone (exchange : BlockExchange) : Prop :=
  ∃ error, exchange.reply = .error error ∧ ∃ code ∈ exchange.op.goneCodes, error.code? = some code

/-- The answer was wrong: something which the call should remove was there. -/
def FalseGone (exchange : BlockExchange) : Prop :=
  exchange.SaysGone ∧ ∃ r ∈ exchange.op.removes, r ∈ exchange.before

/-- A reservation or placement group without a name cannot be told from none. -/
def Known : CloudResource → Prop
  | .compute _ => True
  | .reservation reservationId => reservationId ≠ ""
  | .group groupName => groupName ≠ ""

/-- What the normal return of a creating call names. -/
def named (exchange : BlockExchange) : Cloud :=
  {r | Known r ∧ ∃ response, exchange.reply = .ok response ∧ r ∈ exchange.op.makes response}

end BlockExchange

open BlockExchange

def Named (trace : List BlockExchange) : Cloud := {r | ∃ exchange ∈ trace, r ∈ named exchange}

/-- Some call which cleans up was refused as often as it was made. -/
def Unsettled (trace : List BlockExchange) : Prop :=
  ∃ exchange ∈ trace, exchange.op.cleansUp = true ∧
    ∀ other ∈ trace, other.op = exchange.op → Refused other

/-- Everything which the service made is named by the normal return of a call. -/
def AllNamed (trace : List BlockExchange) : Prop :=
  ∀ exchange ∈ trace, ∀ r ∈ exchange.after, r ∉ exchange.before → r ∈ Named trace

@[simp] theorem named_nil : Named [] = ∅ := by
  ext r
  simp [Named]

@[simp] theorem named_append (first second : List BlockExchange) :
    Named (first ++ second) = Named first ∪ Named second := by
  ext r
  simp only [Named, List.mem_append, Set.mem_ofPred_eq, Set.mem_union]
  grind

theorem named_eq_empty {trace : List BlockExchange}
    (h : ∀ exchange ∈ trace, exchange.op.creates = false) : Named trace = ∅ := by
  ext r
  constructor
  · intro ⟨exchange, hmem, _, response, _, hmakes⟩
    rwa [BlockCall.makes_eq_empty (h exchange hmem)] at hmakes
  · exact fun h ↦ h.elim

theorem refused_iff {exchange : BlockExchange} :
    ¬ Refused exchange ↔ (∃ response, exchange.reply = .ok response) ∨ SaysGone exchange := by
  cases hreply : exchange.reply with
  | ok response => simp [Refused, SaysGone, hreply]
  | error error => simp [Refused, SaysGone, hreply]

/-! ## The final cleanup -/

/-- A part of the final cleanup which removes `targets`, with the errors it reports. -/
structure Cleared (targets : Cloud) (calls : BlockCall → Prop) (cloud : Cloud)
    (trace : List BlockExchange) (after : Cloud) (errors : List String) : Prop where
  calls : ∀ exchange ∈ trace, exchange.op.cleansUp = true ∧ calls exchange.op
  shrinks : after ⊆ cloud
  keeps : cloud \ targets ⊆ after
  errors_iff : errors ≠ [] ↔ Unsettled trace
  removed_iff : errors = [] →
    ((∀ r ∈ targets, r ∉ after) ↔ ∀ exchange ∈ trace, ¬ FalseGone exchange)

theorem not_unsettled_nil : ¬ Unsettled [] := fun ⟨_, hmem, _⟩ ↦ List.not_mem_nil hmem

theorem Cleared.nil (calls : BlockCall → Prop) (cloud : Cloud) :
    Cleared ∅ calls cloud [] cloud [] where
  calls := by simp
  shrinks := subset_rfl
  keeps := fun r hr ↦ hr.1
  errors_iff := by simp [not_unsettled_nil]
  removed_iff := by simp

/-- Calls of other kinds do not settle a call. -/
theorem unsettled_append {calls calls' : BlockCall → Prop} {first second : List BlockExchange}
    (hfirst : ∀ exchange ∈ first, calls exchange.op)
    (hsecond : ∀ exchange ∈ second, calls' exchange.op)
    (hdisjoint : ∀ call, calls call → ¬ calls' call) :
    Unsettled (first ++ second) ↔ Unsettled first ∨ Unsettled second := by
  constructor
  · intro ⟨exchange, hmem, hcleans, hrefused⟩
    match List.mem_append.mp hmem with
    | .inl hmem =>
      exact .inl ⟨exchange, hmem, hcleans,
        fun other hother ↦ hrefused other (List.mem_append_left second hother)⟩
    | .inr hmem =>
      exact .inr ⟨exchange, hmem, hcleans,
        fun other hother ↦ hrefused other (List.mem_append_right first hother)⟩
  · intro h
    match h with
    | .inl ⟨exchange, hmem, hcleans, hrefused⟩ =>
      refine ⟨exchange, List.mem_append_left second hmem, hcleans, fun other hother heq ↦ ?_⟩
      match List.mem_append.mp hother with
      | .inl hother => exact hrefused other hother heq
      | .inr hother =>
        exact absurd (heq ▸ hsecond other hother) (hdisjoint exchange.op (hfirst exchange hmem))
    | .inr ⟨exchange, hmem, hcleans, hrefused⟩ =>
      refine ⟨exchange, List.mem_append_right first hmem, hcleans, fun other hother heq ↦ ?_⟩
      match List.mem_append.mp hother with
      | .inl hother =>
        exact absurd (hsecond exchange hmem) (hdisjoint exchange.op (heq ▸ hfirst other hother))
      | .inr hother => exact hrefused other hother heq

/-- Two parts in a row, which make different calls and remove different resources. -/
theorem Cleared.append {targets targets' : Cloud} {calls calls' : BlockCall → Prop}
    {cloud middle after : Cloud} {first second : List BlockExchange}
    {errors errors' : List String} (hfirst : Cleared targets calls cloud first middle errors)
    (hsecond : Cleared targets' calls' middle second after errors')
    (hdisjoint : ∀ call, calls call → ¬ calls' call) (htargets : ∀ r ∈ targets, r ∉ targets') :
    Cleared (targets ∪ targets') (fun call ↦ calls call ∨ calls' call) cloud (first ++ second)
      after (errors ++ errors') where
  calls exchange hmem := by
    match List.mem_append.mp hmem with
    | .inl hmem => exact (hfirst.calls exchange hmem).imp_right .inl
    | .inr hmem => exact (hsecond.calls exchange hmem).imp_right .inr
  shrinks := hsecond.shrinks.trans hfirst.shrinks
  keeps r hr := hsecond.keeps ⟨hfirst.keeps ⟨hr.1, fun h ↦ hr.2 (.inl h)⟩, fun h ↦ hr.2 (.inr h)⟩
  errors_iff := by
    rw [unsettled_append (fun e he ↦ (hfirst.calls e he).2) (fun e he ↦ (hsecond.calls e he).2)
      hdisjoint, ← hfirst.errors_iff, ← hsecond.errors_iff, ne_eq, List.append_eq_nil_iff]
    exact Decidable.not_and_iff_or_not
  removed_iff herrors := by
    have ⟨hnil, hnil'⟩ := List.append_eq_nil_iff.mp herrors
    have hkeep : (∀ r ∈ targets, r ∉ after) ↔ ∀ r ∈ targets, r ∉ middle := by
      constructor
      · exact fun h r hr hmiddle ↦ h r hr (hsecond.keeps ⟨hmiddle, htargets r hr⟩)
      · exact fun h r hr hafter ↦ h r hr (hsecond.shrinks hafter)
    have hunion : (∀ r ∈ targets ∪ targets', r ∉ after) ↔
        (∀ r ∈ targets, r ∉ after) ∧ ∀ r ∈ targets', r ∉ after := by
      simp only [Set.mem_union]
      grind
    rw [hunion, hkeep, hfirst.removed_iff hnil, hsecond.removed_iff hnil']
    simp only [List.mem_append]
    grind

/-- One call, when it reports an error exactly if it is refused. -/
theorem Cleared.single {cloud after : Cloud} {call : BlockCall} {reply : BlockReply call}
    {errors : List String} (hstep : CloudStep cloud call reply after)
    (hcleans : call.cleansUp = true)
    (herrors : errors ≠ [] ↔ Refused ⟨cloud, call, reply, after⟩) :
    Cleared call.removes (· = call) cloud [⟨cloud, call, reply, after⟩] after errors where
  calls exchange hmem := by
    rw [List.mem_singleton.mp hmem]
    exact ⟨hcleans, rfl⟩
  shrinks := (hstep.shrinks hcleans).1
  keeps := (hstep.shrinks hcleans).2
  errors_iff := by
    rw [herrors]
    simp [Unsettled, hcleans]
  removed_iff hnil := by
    have hsettled := refused_iff.mp (mt herrors.mpr (not_not_intro hnil))
    simp only [List.mem_singleton, forall_eq, FalseGone, not_and, not_exists]
    match hsettled with
    | .inl ⟨response, hreply⟩ =>
      have hafter : ∀ r ∈ call.removes, r ∉ after := by
        intro r hr hmem
        rw [show reply = .ok response from hreply] at hstep
        rw [show after = call.performed response cloud from hstep] at hmem
        exact hmem.2 hr
      refine iff_of_true hafter fun ⟨error, herror, _⟩ ↦ ?_
      rw [hreply] at herror
      cases herror
    | .inr hgone =>
      have hafter : after = cloud := by
        have ⟨error, hreply, code, _, hcode⟩ := hgone
        rw [show reply = .error error from hreply] at hstep
        match hstep with
        | .inl h => exact h
        | .inr ⟨hnone, _⟩ =>
          rw [hnone] at hcode
          cases hcode
      rw [hafter]
      exact ⟨fun h _ ↦ h, fun h ↦ h hgone⟩

/-- A refused call, before the same call is made again. -/
theorem Cleared.retry {cloud middle after : Cloud} {call : BlockCall} {reply : BlockReply call}
    {errors : List String} {rest : List BlockExchange}
    (hstep : CloudStep cloud call reply middle) (hcleans : call.cleansUp = true)
    (hrefused : Refused ⟨cloud, call, reply, middle⟩)
    (hrest : Cleared call.removes (· = call) middle rest after errors) (hne : rest ≠ []) :
    Cleared call.removes (· = call) cloud (⟨cloud, call, reply, middle⟩ :: rest) after errors where
  calls exchange hmem := by
    match List.mem_cons.mp hmem with
    | .inl heq => exact heq ▸ ⟨hcleans, rfl⟩
    | .inr hmem => exact hrest.calls exchange hmem
  shrinks := hrest.shrinks.trans (hstep.shrinks hcleans).1
  keeps r hr := hrest.keeps ⟨(hstep.shrinks hcleans).2 hr, hr.2⟩
  errors_iff := by
    rw [hrest.errors_iff]
    constructor
    · intro ⟨exchange, hmem, hc, hall⟩
      refine ⟨exchange, List.mem_cons_of_mem _ hmem, hc, fun other hother heq ↦ ?_⟩
      match List.mem_cons.mp hother with
      | .inl h => exact h ▸ hrefused
      | .inr hother => exact hall other hother heq
    · intro ⟨exchange, hmem, _, hall⟩
      have hop : exchange.op = call := by
        match List.mem_cons.mp hmem with
        | .inl h => exact h ▸ rfl
        | .inr hmem => exact (hrest.calls exchange hmem).2
      have ⟨next, hnext⟩ := List.exists_mem_of_ne_nil rest hne
      refine ⟨next, hnext, (hrest.calls next hnext).1, fun other hother _ ↦ ?_⟩
      exact hall other (List.mem_cons_of_mem _ hother)
        ((hrest.calls other hother).2.trans hop.symm)
  removed_iff hnil := by
    rw [hrest.removed_iff hnil]
    have hfirst : ¬ FalseGone ⟨cloud, call, reply, middle⟩ := fun h ↦
      absurd hrefused (refused_iff.mpr (.inr h.1))
    simp [hfirst]

/-- `_cleanup_call` always returns, and reports an error exactly if the call was never settled. -/
theorem cleanupCall_returns {call : BlockCall} {action : String} {retryCodes : List String}
    (hcleans : call.cleansUp = true) (attempts : ℕ) {cloud after : Cloud}
    {trace : List BlockExchange} {outcome : Except AwsError (Option String)}
    (h : Execution CloudStep cloud
      (cleanupCall call action call.goneCodes retryCodes (attempts + 1)) trace after outcome) :
    ∃ result, outcome = .ok result ∧ trace ≠ [] ∧
      Cleared call.removes (· = call) cloud trace after result.toList := by
  induction attempts using Nat.strongRecOn generalizing cloud trace with
  | ind attempts ih =>
  have ⟨reply, middle, rest, hstep, htrace, hrest⟩ := Execution.call_iff.mp h
  -- Whatever ends the loop is a single call, refused exactly if an error is reported.
  have hlast : ∀ result, Execution CloudStep middle (.done result) rest after outcome →
      (result ≠ none ↔ Refused ⟨cloud, call, reply, middle⟩) →
      ∃ result, outcome = .ok result ∧ trace ≠ [] ∧
        Cleared call.removes (· = call) cloud trace after result.toList := by
    intro result hdone hrefused
    have ⟨hnil, hlast, houtcome⟩ := Execution.done_iff.mp hdone
    rw [hnil] at htrace
    rw [hlast, htrace]
    refine ⟨result, houtcome, List.cons_ne_nil _ _, Cleared.single hstep hcleans ?_⟩
    rw [← hrefused]
    cases result <;> simp
  match reply, hrest with
  | .ok response, hrest =>
    exact hlast none hrest (by simp [Refused])
  | .error (.client code text), hrest =>
    simp only at hrest
    split at hrest
    · next hgone => exact hlast none hrest (by simp [Refused, AwsError.code?, hgone])
    · next hgone =>
      have hrefused : Refused ⟨cloud, call, .error (.client code text), middle⟩ := by
        refine ⟨_, rfl, fun other hother heq ↦ hgone ?_⟩
        rw [Option.some.inj heq]
        exact hother
      split at hrest
      · next hretry =>
        have ⟨left, hleft⟩ := Nat.exists_eq_succ_of_ne_zero hretry.2
        rw [hleft] at hrest
        have ⟨result, houtcome, hne, hcleared⟩ := ih left (by omega) hrest
        rw [htrace]
        exact ⟨result, houtcome, List.cons_ne_nil _ _,
          .retry hstep hcleans hrefused hcleared hne⟩
      · exact hlast _ hrest (by simp [hrefused])
  | .error (.noCredentials _), hrest | .error (.profileNotFound _), hrest
  | .error (.tokenRetrieval _), hrest | .error (.botoCore _ _), hrest
  | .error (.other _ _), hrest =>
    exact hlast _ hrest (by simp [Refused, AwsError.code?])

theorem Cleared.mono_calls {targets : Cloud} {calls calls' : BlockCall → Prop}
    {cloud after : Cloud} {trace : List BlockExchange} {errors : List String}
    (h : Cleared targets calls cloud trace after errors) (hcalls : ∀ call, calls call → calls' call) :
    Cleared targets calls' cloud trace after errors :=
  { h with calls := fun exchange hmem ↦ (h.calls exchange hmem).imp_right (hcalls exchange.op) }

/-- The wait for terminated instances, which removes nothing itself. -/
theorem waiter_cleared {instanceIds : List String} {cloud after : Cloud}
    {trace : List BlockExchange} {outcome : Except AwsError (List String)}
    (h : Execution CloudStep cloud
      ((invoke (.waitInstanceTerminated instanceIds)).attempt.bind fun
        | .ok _ => .done []
        | .error error =>
          .done [s!"instance_terminated waiter: {error.typeName}: {error.text}"])
      trace after outcome) :
    ∃ errors, outcome = .ok errors ∧
      Cleared ∅ (· = .waitInstanceTerminated instanceIds) cloud trace after errors := by
  have ⟨first, result, middle, second, htrace, hcall, hrest⟩ := Execution.bind_attempt h
  have ⟨hfirst, hstep⟩ := Execution.invoke_iff.mp hcall
  match result, hrest with
  | .ok response, hrest =>
    have ⟨hnil, hlast, houtcome⟩ := Execution.done_iff.mp hrest
    rw [htrace, hfirst, hnil, hlast]
    exact ⟨[], houtcome, Cleared.single hstep rfl (by simp [Refused])⟩
  | .error error, hrest =>
    have ⟨hnil, hlast, houtcome⟩ := Execution.done_iff.mp hrest
    rw [htrace, hfirst, hnil, hlast]
    exact ⟨_, houtcome, Cleared.single hstep rfl (by simp [Refused, BlockCall.goneCodes])⟩

/-- `_terminate_instances` waits only for a termination which was accepted. -/
theorem terminateInstances_cleared {instanceIds : List String} {cloud after : Cloud}
    {trace : List BlockExchange} {outcome : Except AwsError (List String)}
    (h : Execution CloudStep cloud (terminateInstances instanceIds) trace after outcome) :
    ∃ errors, outcome = .ok errors ∧ Cleared (computes instanceIds)
      (fun call ↦ call = .terminateInstances instanceIds ∨
        call = .waitInstanceTerminated instanceIds) cloud trace after errors := by
  simp only [terminateInstances, Program.bind_eq, Program.pure_eq] at h
  have ⟨first, result, middle, second, htrace, ⟨_, hcleared⟩, hrest⟩ :=
    Execution.bind_of_returns (cleanupCall_returns rfl 2) h
  rw [htrace]
  match result, hrest, hcleared with
  | some error, hrest, hcleared =>
    have ⟨hnil, hlast, houtcome⟩ := Execution.done_iff.mp hrest
    rw [hnil, hlast, List.append_nil]
    exact ⟨[error], houtcome, hcleared.mono_calls fun call ↦ .inl⟩
  | none, hrest, hcleared =>
    have ⟨errors, houtcome, hwaited⟩ := waiter_cleared hrest
    have happend := hcleared.append hwaited (fun _ h h' ↦ by cases h.symm.trans h')
      (fun _ _ ↦ Set.notMem_empty _)
    rw [Set.union_empty] at happend
    exact ⟨errors, houtcome, happend⟩

theorem sweepIf_cleared {present : Bool} {sweep : BlockProgram (List String)} {targets : Cloud}
    {calls : BlockCall → Prop} {cloud after : Cloud} {trace : List BlockExchange}
    {outcome : Except AwsError (List String)}
    (hsweep : ∀ {trace after outcome}, Execution CloudStep cloud sweep trace after outcome →
      ∃ errors, outcome = .ok errors ∧ Cleared targets calls cloud trace after errors)
    (h : Execution CloudStep cloud (sweepIf present sweep) trace after outcome) :
    ∃ errors, outcome = .ok errors ∧
      Cleared (if present then targets else ∅) calls cloud trace after errors := by
  match present, h with
  | true, h => exact hsweep h
  | false, h =>
    have ⟨hnil, hlast, houtcome⟩ := Execution.done_iff.mp h
    rw [hnil, hlast]
    exact ⟨[], houtcome, Cleared.nil calls cloud⟩

/-- A sweep of one cleanup call. -/
theorem toList_cleared {call : BlockCall} {action : String} {retryCodes : List String}
    (hcleans : call.cleansUp = true) {attempts : ℕ} {cloud after : Cloud}
    {trace : List BlockExchange} {outcome : Except AwsError (List String)}
    (h : Execution CloudStep cloud
      ((cleanupCall call action call.goneCodes retryCodes (attempts + 1)).bind fun error ↦
        .done error.toList) trace after outcome) :
    ∃ errors, outcome = .ok errors ∧
      Cleared call.removes (· = call) cloud trace after errors := by
  have ⟨first, result, middle, second, htrace, ⟨_, hcleared⟩, hrest⟩ :=
    Execution.bind_of_returns (cleanupCall_returns hcleans attempts) h
  have ⟨hnil, hlast, houtcome⟩ := Execution.done_iff.mp hrest
  rw [htrace, hnil, hlast, List.append_nil]
  exact ⟨result.toList, houtcome, hcleared⟩

/-- What the local variables of `main` name. -/
def BlockLocals.resources (vars : BlockLocals) : Cloud :=
  computes vars.instanceIds ∪
    ((if vars.reservationId ≠ "" then {.reservation vars.reservationId} else ∅) ∪
      if vars.placementGroup ≠ "" then {.group vars.placementGroup} else ∅)

theorem mem_of_mem_ite {present : Bool} {resources : Cloud} {r : CloudResource}
    (h : r ∈ if present then resources else ∅) : r ∈ resources := by
  match present, h with
  | true, h => exact h

/-- `cleanup` always returns, and removes what the variables name. -/
theorem cleanup_cleared {vars : BlockLocals} {cloud after : Cloud} {trace : List BlockExchange}
    {outcome : Except AwsError (List String)}
    (h : Execution CloudStep cloud (cleanup vars) trace after outcome) :
    ∃ errors, outcome = .ok errors ∧
      Cleared vars.resources (fun _ ↦ True) cloud trace after errors := by
  simp only [cleanup, Program.bind_eq, Program.pure_eq] at h
  have ⟨first, instances, middle, rest, htrace, hfirst, hrest⟩ :=
    Execution.bind_of_returns (sweepIf_cleared terminateInstances_cleared) h
  have ⟨second, reservation, middle', third, htrace', hsecond, hrest'⟩ :=
    Execution.bind_of_returns (sweepIf_cleared (toList_cleared rfl)) hrest
  have ⟨third', group, last, nothing, htrace'', hthird, hdone⟩ :=
    Execution.bind_of_returns (sweepIf_cleared (toList_cleared rfl)) hrest'
  have ⟨hnil, hlast, houtcome⟩ := Execution.done_iff.mp hdone
  refine ⟨_, houtcome, ?_⟩
  rw [htrace, htrace', htrace'', hnil, hlast, List.append_nil]
  have hlater := hsecond.append hthird (fun _ h h' ↦ by cases h.symm.trans h') ?_
  · have hall := hfirst.append hlater ?_ ?_
    · have hcomputes : (if decide (vars.instanceIds ≠ []) = true then computes vars.instanceIds
          else ∅) = computes vars.instanceIds := by
        split
        · rfl
        · next h =>
          ext r
          simp_all [computes]
      rw [hcomputes] at hall
      simpa [BlockLocals.resources, BlockCall.removes] using hall.mono_calls fun _ _ ↦ trivial
    · intro call h h'
      match h, h' with
      | .inl h, .inl h' | .inl h, .inr h' | .inr h, .inl h' | .inr h, .inr h' =>
        cases h.symm.trans h'
    · intro r hr hr'
      have ⟨instanceId, _, heq⟩ := mem_of_mem_ite hr
      match hr' with
      | .inl hr' =>
        have hmem := mem_of_mem_ite hr'
        cases heq.symm.trans (show r = .reservation _ from hmem)
      | .inr hr' =>
        have hmem := mem_of_mem_ite hr'
        cases heq.symm.trans (show r = .group _ from hmem)
  · intro r hr hr'
    have hmem := mem_of_mem_ite hr
    have hmem' := mem_of_mem_ite hr'
    cases (show r = .reservation _ from hmem).symm.trans (show r = .group _ from hmem')

/-! ## The allocation -/

/-- A program whose calls make nothing. -/
abbrev Reads {α : Type} (program : BlockProgram α) : Prop :=
  program.Calls fun call ↦ call.creates = false ∧ call.cleansUp = false

theorem Reads.named_eq_empty {α : Type} {program : BlockProgram α} (h : Reads program)
    {cloud after : Cloud} {trace : List BlockExchange} {outcome : Except AwsError α}
    (hexecution : Execution CloudStep cloud program trace after outcome) : Named trace = ∅ :=
  Aws.named_eq_empty fun exchange hmem ↦ (h.mem_trace hexecution exchange hmem).1

theorem candidateAvailabilityZones_reads (unicode : Unicode) (args : BlockArgs) :
    Reads (candidateAvailabilityZones unicode args) := by
  unfold candidateAvailabilityZones
  split
  · exact .done _
  · apply Program.Calls.bind
    · apply Program.Calls.call ⟨rfl, rfl⟩
      intro reply
      split
      · exact .done _
      · exact .done _
      · exact .raise _
    · intro supported
      split
      · exact .raise _
      · exact .done _

theorem accountAndZones_reads (unicode : Unicode) (args : BlockArgs) :
    Reads (accountAndZones unicode args) := by
  apply Program.Calls.bind (.invoke ⟨rfl, rfl⟩)
  intro _
  apply Program.Calls.bind
  · unfold accountAndZones.account
    split
    · exact .done _
    · exact .invoke ⟨rfl, rfl⟩
  · intro accountId
    apply Program.Calls.bind (candidateAvailabilityZones_reads unicode args)
    exact fun _ ↦ .done _

theorem placementGroupArn_reads (placementGroup : String) :
    Reads (placementGroupArn placementGroup) := by
  apply Program.Calls.bind (.invoke ⟨rfl, rfl⟩)
  intro groups
  split
  · split
    · exact .done _
    · exact .raise _
  · exact .raise _

theorem imageIdOf_reads (args : BlockArgs) : Reads (imageIdOf args) := by
  apply Program.Calls.bind
  · unfold imageIdOf.selected
    split
    · exact .done _
    · apply Program.Calls.call ⟨rfl, rfl⟩
      intro reply
      split
      · exact .done _
      · exact .done _
      · exact .raise _
  · intro found
    split
    · exact .done _
    · exact .raise _

theorem awaitInstances_reads (instanceIds : List String) : Reads (awaitInstances instanceIds) := by
  unfold awaitInstances
  split
  · exact .done _
  · apply Program.Calls.bind (.invoke ⟨rfl, rfl⟩)
    intro _
    apply Program.Calls.bind (.invoke ⟨rfl, rfl⟩)
    exact fun _ ↦ .done _

/-- What a creating call names, by the way it ends. -/
def Returned {α : Type} (known : α → Cloud) : Except AwsError α → Cloud
  | .ok result => known result
  | .error _ => ∅

/-- A program whose result says all that its calls have named. -/
def Accounts {α : Type} (known : α → Cloud) (program : BlockProgram α) : Prop :=
  ∀ ⦃cloud after : Cloud⦄ ⦃trace : List BlockExchange⦄ ⦃outcome : Except AwsError α⦄,
    Execution CloudStep cloud program trace after outcome →
      Named trace = Returned known outcome

theorem Reads.accounts {α : Type} {program : BlockProgram α} (h : Reads program) :
    Accounts (fun _ ↦ ∅) program := by
  intro cloud after trace outcome hexecution
  rw [h.named_eq_empty hexecution]
  cases outcome <;> rfl

theorem invoke_accounts (call : BlockCall) {known : call.Response → Cloud}
    (hknown : ∀ response, known response = {r | Known r ∧ r ∈ call.makes response}) :
    Accounts known (invoke call) := by
  intro cloud after trace outcome hexecution
  have ⟨htrace, _⟩ := Execution.invoke_iff.mp hexecution
  rw [htrace]
  ext r
  cases outcome with
  | ok response => simp [Named, named, Returned, hknown]
  | error error => simp [Named, named, Returned]

/-- A program after reads. -/
theorem Accounts.after_reads {α β : Type} {known : β → Cloud} {program : BlockProgram α}
    {f : α → BlockProgram β} (hreads : Reads program) (hf : ∀ result, Accounts known (f result)) :
    Accounts known (program.bind f) := by
  intro cloud after trace outcome hexecution
  match Execution.bind_iff.mp hexecution with
  | .inl ⟨error, houtcome, hraised⟩ =>
    rw [houtcome, hreads.named_eq_empty hraised]
    rfl
  | .inr ⟨first, result, middle, second, htrace, hfirst, hsecond⟩ =>
    rw [htrace, named_append, hreads.named_eq_empty hfirst, Set.empty_union]
    exact hf result hsecond

theorem reservationRounds_accounts (args : BlockArgs) (accountId : String) (single : Bool)
    (zones : List String) (lastError : Option AwsError) :
    Accounts (fun result ↦ {r | Known r ∧ r ∈ ({.reservation result.1} : Cloud)})
      (reservationRounds args accountId single zones lastError) := by
  induction zones generalizing lastError with
  | nil =>
    intro cloud after trace outcome hexecution
    cases lastError <;>
      (have ⟨htrace, _, houtcome⟩ := Execution.raise_iff.mp hexecution
       rw [htrace, houtcome, named_nil]
       rfl)
  | cons zone rest ih =>
    intro cloud after trace outcome hexecution
    have ⟨first, result, middle, second, htrace, hfirst, hsecond⟩ :=
      Execution.bind_attempt hexecution
    have hcreate : Accounts
        (fun reservationId ↦ {r | Known r ∧ r ∈ ({.reservation reservationId} : Cloud)})
        (createCapacityReservation args accountId zone) :=
      Accounts.after_reads (placementGroupArn_reads _) fun _ ↦
        invoke_accounts (.createCapacityReservation _) fun _ ↦ rfl
    rw [htrace, named_append, hcreate hfirst]
    match result, hsecond with
    | .ok reservationId, hsecond =>
      have ⟨hnil, _, houtcome⟩ := Execution.done_iff.mp hsecond
      rw [hnil, houtcome, named_nil, Set.union_empty]
      rfl
    | .error error, hsecond =>
      simp only at hsecond
      split at hsecond
      · have ⟨hnil, _, houtcome⟩ := Execution.raise_iff.mp hsecond
        rw [hnil, houtcome, named_nil, Set.union_empty]
        rfl
      · rw [ih (some error) hsecond]
        exact Set.empty_union _

/-- The report of the `try` block, before the final cleanup. -/
def reportOf : Except AwsError BlockReport → BlockReport
  | .ok contract => contract
  | .error error => failure error

/-- The statements of the `try` block which follow: where they end, the variables name what was known
before and all that the calls have named since. -/
def Remembers (known : Cloud)
    (program : BlockProgram (BlockLocals × Except AwsError BlockReport)) : Prop :=
  ∀ ⦃cloud after : Cloud⦄ ⦃trace : List BlockExchange⦄
    ⦃outcome : Except AwsError (BlockLocals × Except AwsError BlockReport)⦄,
    Execution CloudStep cloud program trace after outcome →
      ∃ vars result, outcome = .ok (vars, result) ∧ vars.resources = known ∪ Named trace ∧
        (vars.ec2 = false → vars.resources = ∅) ∧ (reportOf result).cleanupErrors = []

theorem Remembers.orStop {α : Type} {vars : BlockLocals} {statement : BlockProgram α}
    {known : α → Cloud} {next : α → BlockProgram (BlockLocals × Except AwsError BlockReport)}
    (hstatement : Accounts known statement) (hvars : vars.ec2 = false → vars.resources = ∅)
    (hnext : ∀ result, Remembers (vars.resources ∪ known result) (next result)) :
    Remembers vars.resources (orStop vars statement next) := by
  intro cloud after trace outcome hexecution
  have ⟨first, result, middle, second, htrace, hfirst, hsecond⟩ :=
    Execution.bind_attempt hexecution
  rw [htrace, named_append, hstatement hfirst]
  match result, hsecond with
  | .ok result, hsecond =>
    have ⟨vars', outcome', houtcome, hresources, hrest⟩ := hnext result hsecond
    refine ⟨vars', outcome', houtcome, ?_, hrest⟩
    rw [hresources, Set.union_assoc]
    rfl
  | .error error, hsecond =>
    have ⟨hnil, _, houtcome⟩ := Execution.done_iff.mp hsecond
    refine ⟨vars, .error error, houtcome, ?_, hvars, rfl⟩
    rw [hnil, named_nil, Set.union_empty]
    exact (Set.union_empty _).symm

theorem Remembers.done {vars : BlockLocals} {result : Except AwsError BlockReport}
    (hvars : vars.ec2 = false → vars.resources = ∅)
    (hreport : (reportOf result).cleanupErrors = []) :
    Remembers vars.resources (.done (vars, result)) := by
  intro cloud after trace outcome hexecution
  have ⟨hnil, _, houtcome⟩ := Execution.done_iff.mp hexecution
  exact ⟨vars, result, houtcome, by rw [hnil, named_nil, Set.union_empty], hvars, hreport⟩

theorem computes_nil : computes [] = ∅ := by
  ext r
  simp [computes]

theorem runInstances_accounts (args : BlockArgs)
    (accountId reservationId availabilityZone : String) :
    Accounts computes (runInstances args accountId reservationId availabilityZone) := by
  apply Accounts.after_reads (imageIdOf_reads args)
  intro imageId
  apply invoke_accounts (.runInstances _)
  intro instanceIds
  ext r
  constructor
  · intro h
    have ⟨_, _, heq⟩ := h
    exact ⟨heq ▸ trivial, h⟩
  · exact fun h ↦ h.2

/-! Each assignment adds what the call before it has named. -/

theorem resources_group (groupName : String) (vars : BlockLocals) (response : Unit)
    (tags : List Tag) (h : vars.placementGroup = "") :
    vars.resources ∪ {r | Known r ∧
        r ∈ (BlockCall.createPlacementGroup groupName tags).makes response} =
      BlockLocals.resources { vars with placementGroup := groupName } := by
  ext r
  by_cases hname : groupName = ""
  · simp [BlockLocals.resources, BlockCall.makes, h, hname]
    grind [Known]
  · simp [BlockLocals.resources, BlockCall.makes, h, hname]
    grind [Known]

theorem resources_reservation (reservationId : String) (vars : BlockLocals)
    (h : vars.reservationId = "") :
    vars.resources ∪ {r | Known r ∧ r ∈ ({.reservation reservationId} : Cloud)} =
      BlockLocals.resources { vars with reservationId := reservationId } := by
  ext r
  by_cases hname : reservationId = ""
  · simp [BlockLocals.resources, h, hname]
    grind [Known]
  · simp [BlockLocals.resources, h, hname]
    grind [Known]

theorem resources_instances (instanceIds : List String) (vars : BlockLocals)
    (h : vars.instanceIds = []) :
    vars.resources ∪ computes instanceIds =
      BlockLocals.resources { vars with instanceIds := instanceIds } := by
  ext r
  simp [BlockLocals.resources, h, computes_nil]
  grind

/-- The variables name all that the calls of the `try` block have named. -/
theorem allocate_remembers (unicode : Unicode) (args : BlockArgs) :
    Remembers ∅ (allocate unicode args) := by
  have hempty : ∀ ec2, (BlockLocals.resources { ec2 := ec2 }) = ∅ := by
    intro ec2
    simp [BlockLocals.resources, computes_nil]
  unfold allocate
  rw [← hempty false]
  apply Remembers.orStop (Reads.accounts (.ofExcept _)) (fun _ ↦ hempty false)
  intro _
  rw [Set.union_empty]
  apply Remembers.orStop (Reads.accounts (.invoke ⟨rfl, rfl⟩)) (fun _ ↦ hempty false)
  intro _
  rw [Set.union_empty, hempty, ← hempty true]
  apply Remembers.orStop (Reads.accounts (accountAndZones_reads unicode args)) (by simp)
  intro (accountId, candidateAzs)
  rw [Set.union_empty]
  apply Remembers.orStop (invoke_accounts (.createPlacementGroup _ _) fun _ ↦ rfl) (by simp)
  intro _
  rw [resources_group]
  apply Remembers.orStop (reservationRounds_accounts args accountId _ candidateAzs none) (by simp)
  intro (reservationId, availabilityZone)
  rw [resources_reservation]
  apply Remembers.orStop (runInstances_accounts args accountId reservationId availabilityZone)
    (by simp)
  intro instanceIds
  rw [resources_instances]
  apply Remembers.orStop (Reads.accounts (awaitInstances_reads instanceIds)) (by simp)
  intro instances
  rw [Set.union_empty]
  · exact Remembers.done (by simp) rfl
  all_goals rfl

abbrev NeverCleansUp {α : Type} (program : BlockProgram α) : Prop :=
  program.Calls fun call ↦ call.cleansUp = false

theorem Reads.neverCleansUp {α : Type} {program : BlockProgram α} (h : Reads program) :
    NeverCleansUp program := h.mono fun _ ↦ And.right

theorem reservationRounds_neverCleansUp (args : BlockArgs) (accountId : String) (single : Bool)
    (zones : List String) (lastError : Option AwsError) :
    NeverCleansUp (reservationRounds args accountId single zones lastError) := by
  induction zones generalizing lastError with
  | nil => cases lastError <;> exact .raise _
  | cons zone rest ih =>
    apply Program.Calls.bind
    · apply Program.Calls.attempt
      apply Program.Calls.bind (placementGroupArn_reads _).neverCleansUp
      exact fun _ ↦ .invoke rfl
    · intro result
      match result with
      | .ok _ => exact .done _
      | .error error =>
        simp only
        split
        · exact .raise _
        · exact ih (some error)

theorem runInstances_neverCleansUp (args : BlockArgs)
    (accountId reservationId availabilityZone : String) :
    NeverCleansUp (runInstances args accountId reservationId availabilityZone) := by
  apply Program.Calls.bind (imageIdOf_reads args).neverCleansUp
  exact fun _ ↦ .invoke rfl

theorem orStop_neverCleansUp {α : Type} {vars : BlockLocals} {statement : BlockProgram α}
    {next : α → BlockProgram (BlockLocals × Except AwsError BlockReport)}
    (hstatement : NeverCleansUp statement) (hnext : ∀ result, NeverCleansUp (next result)) :
    NeverCleansUp (orStop vars statement next) := by
  apply Program.Calls.bind hstatement.attempt
  intro result
  match result with
  | .ok result => exact hnext result
  | .error _ => exact .done _

theorem allocate_neverCleansUp (unicode : Unicode) (args : BlockArgs) :
    NeverCleansUp (allocate unicode args) := by
  apply orStop_neverCleansUp (.ofExcept _)
  intro _
  apply orStop_neverCleansUp (.invoke rfl)
  intro _
  apply orStop_neverCleansUp (accountAndZones_reads unicode args).neverCleansUp
  intro (accountId, candidateAzs)
  apply orStop_neverCleansUp (.invoke rfl)
  intro _
  apply orStop_neverCleansUp (reservationRounds_neverCleansUp _ _ _ _ _)
  intro (reservationId, availabilityZone)
  apply orStop_neverCleansUp (runInstances_neverCleansUp _ _ _ _)
  intro instanceIds
  apply orStop_neverCleansUp (awaitInstances_reads instanceIds).neverCleansUp
  exact fun _ ↦ .done _

/-! ## The whole run -/

theorem withCleanupErrors_cleanupErrors {report : BlockReport} (errors : List String)
    (h : report.cleanupErrors = []) :
    (report.withCleanupErrors errors).cleanupErrors = errors := by
  unfold BlockReport.withCleanupErrors
  split
  · next hnil => rw [h, hnil]
  · split <;> rfl

theorem withCleanupErrors_success {report : BlockReport} {errors : List String}
    (hne : errors ≠ []) : (report.withCleanupErrors errors).success = false := by
  unfold BlockReport.withCleanupErrors
  rw [if_neg hne]
  split
  · rfl
  · next h => simpa using h

/-- The first part of a run, which only makes resources. -/
structure Allocated (trace : List BlockExchange) (cloud : Cloud) : Prop where
  never : ∀ exchange ∈ trace, exchange.op.cleansUp = false
  made : ∀ r ∈ cloud, ∃ exchange ∈ trace, r ∉ exchange.before ∧ r ∈ exchange.after
  kept : ∀ exchange ∈ trace, exchange.after ⊆ cloud

theorem allocate_allocated {unicode : Unicode} {args : BlockArgs} {trace : List BlockExchange}
    {cloud : Cloud} {outcome : Except AwsError (BlockLocals × Except AwsError BlockReport)}
    (h : Execution CloudStep ∅ (allocate unicode args) trace cloud outcome) :
    Allocated trace cloud where
  never := (allocate_neverCleansUp unicode args).mem_trace h
  made r hr := h.exists_change (P := fun cloud ↦ r ∈ cloud) (Set.notMem_empty r) hr
  kept exchange hmem r hr := by
    apply h.persists_from (P := fun cloud ↦ r ∈ cloud) _ hmem hr
    intro other hother hbefore
    exact (h.step_of_mem other hother).grows
      ((allocate_neverCleansUp unicode args).mem_trace h other hother) hbefore

/-- A run allocates, clears what the allocation has named, and reports the errors of that. -/
theorem topologyBlockMain_parts {unicode : Unicode} {args : BlockArgs}
    {trace : List BlockExchange} {cloud : Cloud} {report : BlockReport}
    (h : Execution CloudStep ∅ (topologyBlockMain unicode args) trace cloud (.ok report))
    (hteardown : args.teardown = false) (hskip : args.skipDestroy = false) :
    ∃ first middle second, trace = first ++ second ∧ Allocated first middle ∧
      Cleared (Named first) (fun _ ↦ True) middle second cloud report.cleanupErrors ∧
      (report.success = true → report.cleanupErrors = []) := by
  unfold topologyBlockMain at h
  rw [if_neg (by simp [hteardown])] at h
  have ⟨first, (vars, outcome), middle, second, htrace, hfirst, hsecond⟩ :=
    Execution.bind_of_returns (R := fun trace cloud result ↦
      Execution CloudStep ∅ (allocate unicode args) trace cloud (.ok result))
      (fun h ↦ by
        have ⟨vars, result, houtcome, _⟩ := allocate_remembers unicode args h
        exact ⟨(vars, result), houtcome, houtcome ▸ h⟩) h
  have ⟨_, _, heq, hresources, hec2, hreport⟩ := allocate_remembers unicode args hfirst
  cases heq
  rw [Set.empty_union] at hresources
  refine ⟨first, middle, second, htrace, allocate_allocated hfirst, ?_⟩
  change Execution CloudStep middle (if _ then _ else Program.done (reportOf outcome)) _ _ _
    at hsecond
  by_cases hconnected : vars.ec2 = true
  · rw [if_pos ⟨by simp [hskip], hconnected⟩] at hsecond
    have ⟨third, errors, last, nothing, hthird, hcleared, hdone⟩ :=
      Execution.bind_of_returns cleanup_cleared hsecond
    have ⟨hnil, hlast, hok⟩ := Execution.done_iff.mp hdone
    have hok : report = (reportOf outcome).withCleanupErrors errors := Except.ok.inj hok
    rw [hthird, hnil, List.append_nil, hlast, hok, withCleanupErrors_cleanupErrors errors hreport,
      ← hresources]
    refine ⟨hcleared, fun hsuccess ↦ ?_⟩
    by_contra hne
    rw [withCleanupErrors_success hne] at hsuccess
    cases hsuccess
  · rw [if_neg fun hand ↦ hconnected hand.2] at hsecond
    have ⟨hnil, hlast, hok⟩ := Execution.done_iff.mp hsecond
    have hok : report = reportOf outcome := Except.ok.inj hok
    rw [hnil, hlast, hok, hreport, ← hresources, hec2 (by simpa using hconnected)]
    exact ⟨Cleared.nil _ middle, fun _ ↦ rfl⟩

/-- Calls which do not clean up settle nothing, and are never told that something is gone. -/
theorem Allocated.not_falseGone {trace : List BlockExchange} {cloud : Cloud}
    (h : Allocated trace cloud) : ∀ exchange ∈ trace, ¬ FalseGone exchange := by
  intro exchange hmem ⟨⟨_, _, code, hcode, _⟩, _⟩
  rw [BlockCall.goneCodes_eq_nil (h.never exchange hmem)] at hcode
  cases hcode

theorem Cleared.named_eq_empty {targets cloud after : Cloud} {calls : BlockCall → Prop}
    {trace : List BlockExchange} {errors : List String}
    (h : Cleared targets calls cloud trace after errors) : Named trace = ∅ :=
  Aws.named_eq_empty fun exchange hmem ↦ BlockCall.creates_eq_false (h.calls exchange hmem).1

/-- The result of an allocation without `--skip-destroy` and `--teardown`: it carries cleanup errors,
or all that its calls made is gone, and it is a success only without cleanup errors. -/
def LeaksNothingSilently (cloud : Cloud) (report : BlockReport) : Prop :=
  (report.cleanupErrors ≠ [] ∨ cloud = ∅) ∧
    (report.success = true → report.cleanupErrors = [])

/-- An allocation leaks nothing silently exactly if a call of the final cleanup was refused as often
as it was made, or everything which the service made is named by the normal return of a call and no
call was wrongly told that nothing is left to remove. -/
theorem topologyBlockMain_leaksNothing_iff {unicode : Unicode} {args : BlockArgs}
    {trace : List BlockExchange} {cloud : Cloud} {report : BlockReport}
    (h : Execution CloudStep ∅ (topologyBlockMain unicode args) trace cloud (.ok report))
    (hteardown : args.teardown = false) (hskip : args.skipDestroy = false) :
    LeaksNothingSilently cloud report ↔
      Unsettled trace ∨ AllNamed trace ∧ ∀ exchange ∈ trace, ¬ FalseGone exchange := by
  have ⟨first, middle, second, htrace, hallocated, hcleared, hsuccess⟩ :=
    topologyBlockMain_parts h hteardown hskip
  have hunsettled : Unsettled trace ↔ report.cleanupErrors ≠ [] := by
    rw [hcleared.errors_iff, htrace, @unsettled_append (·.cleansUp = false) (·.cleansUp = true)
      first second hallocated.never (fun e he ↦ (hcleared.calls e he).1)
      (fun call hfalse htrue ↦ by cases hfalse.symm.trans htrue)]
    have hfirst : ¬ Unsettled first := fun ⟨exchange, hmem, hcleans, _⟩ ↦ by
      simp [hallocated.never exchange hmem] at hcleans
    simp [hfirst]
  have hnamed : Named trace = Named first := by
    rw [htrace, named_append, hcleared.named_eq_empty, Set.union_empty]
  rw [LeaksNothingSilently, and_iff_left hsuccess, hunsettled]
  by_cases herrors : report.cleanupErrors = []
  · simp only [herrors, ne_eq, not_true_eq_false, false_or]
    have hfalse : (∀ exchange ∈ trace, ¬ FalseGone exchange) ↔ ∀ r ∈ Named first, r ∉ cloud := by
      rw [hcleared.removed_iff herrors, htrace]
      simp only [List.mem_append]
      exact ⟨fun h e he ↦ h e (.inr he), fun h e he ↦ he.elim (hallocated.not_falseGone e) (h e)⟩
    have hall : AllNamed trace ↔ middle ⊆ Named first := by
      rw [AllNamed, hnamed, htrace]
      constructor
      · intro hnames r hr
        have ⟨exchange, hmem, hbefore, hafter⟩ := hallocated.made r hr
        exact hnames exchange (List.mem_append_left second hmem) r hafter hbefore
      · intro hsubset exchange hmem r hafter hbefore
        have hstep := h.step_of_mem exchange (htrace ▸ hmem)
        match List.mem_append.mp hmem with
        | .inl hmem => exact hsubset (hallocated.kept exchange hmem hafter)
        | .inr hmem =>
          have hcleans := (hcleared.calls exchange hmem).1
          exact absurd ((hstep.shrinks hcleans).1 hafter) hbefore
    rw [hall, hfalse]
    constructor
    · intro hempty
      rw [hempty]
      refine ⟨fun r hr ↦ ?_, fun r _ ↦ Set.notMem_empty r⟩
      by_contra hnot
      have hkept := hcleared.keeps ⟨hr, hnot⟩
      rw [hempty] at hkept
      exact hkept
    · intro ⟨hsubset, hgone⟩
      ext r
      exact ⟨fun hr ↦ hgone r (hsubset (hcleared.shrinks hr)) hr, fun hr ↦ hr.elim⟩
  · simp [herrors]

/-! Concrete runs are for a block of two nodes in one zone. -/

def twoNodes : BlockArgs :=
  { region := "us-west-2"
    tenantId := "123456789012"
    topologyBlockId := "block-a"
    instanceType := "g4dn.xlarge"
    availabilityZone := "us-west-2a"
    placementGroup := "isv-block-a"
    requestedNodes := 2
    requestedNetwork := 1
    requestedStorage := 0 }

def denied : AwsError := .client "UnauthorizedOperation" "not authorized"

/-- The placement group cannot be described, and is deleted at the first attempt. -/
def deniedRun : List BlockExchange :=
  let group : CloudResource := .group "isv-block-a"
  [⟨∅, .ec2Client "us-west-2", .ok (), ∅⟩, ⟨∅, .stsClient "us-west-2", .ok (), ∅⟩,
    ⟨∅, .createPlacementGroup "isv-block-a" (blockTags twoNodes "123456789012"), .ok (), {group}⟩,
    ⟨{group}, .describePlacementGroups "isv-block-a", .error denied, {group}⟩,
    ⟨{group}, .deletePlacementGroup "isv-block-a", .ok (), ∅⟩]

theorem topologyBlockMain_leaksNothing_denied :
    LeaksNothingSilently ∅ ((failure denied).withCleanupErrors []) ↔
      Unsettled deniedRun ∨
        AllNamed deniedRun ∧ ∀ exchange ∈ deniedRun, ¬ FalseGone exchange := by
  have hrun : Execution CloudStep ∅ (topologyBlockMain Runtime.plain.unicode twoNodes) deniedRun
      ∅ (.ok ((failure denied).withCleanupErrors [])) := by
    refine .call ?_ (.call ?_ (.call ?_ (.call ?_ (.call ?_ (.done _ _)))))
    · simp [CloudStep, BlockCall.performed, BlockCall.makes, BlockCall.removes]
    · simp [CloudStep, BlockCall.performed, BlockCall.makes, BlockCall.removes]
    · simp [CloudStep, BlockCall.performed, BlockCall.makes, BlockCall.removes, twoNodes]
    · exact .inl rfl
    · simp [CloudStep, BlockCall.performed, BlockCall.makes, BlockCall.removes, twoNodes]
  exact topologyBlockMain_leaksNothing_iff hrun rfl rfl

/-- The service creates the placement group, but the client times out: nothing is cleaned up, and the
report carries no cleanup errors. -/
theorem timedOut_group_leaks :
    ¬ ∀ (unicode : Unicode) (args : BlockArgs) (trace : List BlockExchange) (cloud : Cloud)
      (report : BlockReport),
      Execution CloudStep ∅ (topologyBlockMain unicode args) trace cloud (.ok report) →
      args.teardown = false → args.skipDestroy = false → LeaksNothingSilently cloud report := by
  intro hall
  let tags := blockTags twoNodes "123456789012"
  let timedOut : AwsError := .botoCore "ReadTimeoutError" "Read timeout on endpoint URL"
  have hrun : Execution CloudStep ∅ (topologyBlockMain Runtime.plain.unicode twoNodes)
      [⟨∅, .ec2Client "us-west-2", .ok (), ∅⟩, ⟨∅, .stsClient "us-west-2", .ok (), ∅⟩,
        ⟨∅, .createPlacementGroup "isv-block-a" tags, .error timedOut, {.group "isv-block-a"}⟩]
      {.group "isv-block-a"} (.ok ((failure timedOut).withCleanupErrors [])) := by
    refine .call ?_ (.call ?_ (.call ?_ (.done _ _)))
    · simp [CloudStep, BlockCall.performed, BlockCall.makes, BlockCall.removes]
    · simp [CloudStep, BlockCall.performed, BlockCall.makes, BlockCall.removes]
    · refine .inr ⟨rfl, (), ?_⟩
      simp [BlockCall.performed, BlockCall.makes, BlockCall.removes, twoNodes]
  match (hall _ _ _ _ _ hrun rfl rfl).1 with
  | .inl herrors => exact herrors rfl
  | .inr hcloud => exact Set.singleton_ne_empty _ hcloud

end IsvValidation.Aws
