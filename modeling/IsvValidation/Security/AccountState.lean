import IsvValidation.Security.Ownership

/-!
# An account while it is swept

What is there at some time, what a listing says of it when it says everything, and what an accepted
deletion does to it. Anybody else may remove things at any time. The rules say when a part of the
teardown which returns no errors has removed a thing.
-/

namespace IsvValidation.Security

open Host Library
open Aws (AwsError alreadyGoneCodes transientAwsCodes)

/-- What may be there: a resource, and the alias or the attachment through which a key or a gateway is
found. -/
inductive Thing where
  | resource (resource : Resource)
  | alias (aliasName keyId : String)
  | attachment (gatewayId vpcId : String)

/-- What is in a VPC, or attached to one, is there only while the VPC is. -/
structure AccountState (account : Account) where
  present : Set Thing
  inside : ∀ resource vpcId, account.vpcOf resource = some vpcId → .resource resource ∈ present →
    .resource (.vpc vpcId) ∈ present
  attached : ∀ gatewayId vpcId, .attachment gatewayId vpcId ∈ present →
    .resource (.vpc vpcId) ∈ present

namespace Account

variable (account : Account)

/-- What an account has at the beginning. -/
def things : Set Thing
  | .resource resource => resource ∈ account.resources
  | .alias aliasName keyId => (aliasName, keyId) ∈ account.aliases
  | .attachment gatewayId vpcId => (gatewayId, vpcId) ∈ account.attached

/-- A reply without an error, and without a further page, leaves out nothing which is there. -/
def Complete (present : Set Thing) : (call : SecurityCall) → call.Reply → Prop
  | .describeLoadBalancers, listing => listing.error = none → ∀ arn, account.isLoadBalancer arn →
      .resource (.elb arn) ∈ present → arn ∈ listing.pages.flatten
  | .describeTargetGroups, listing => listing.error = none → ∀ arn,
      account.isLoadBalancer arn = false → .resource (.elb arn) ∈ present →
      arn ∈ listing.pages.flatten
  | .describeTags resourceArns, reply => ∀ descriptions, reply = .ok descriptions →
      ∀ arn ∈ resourceArns, .resource (.elb arn) ∈ present → ∃ tags, (arn, tags) ∈ descriptions
  | .describeInstances, listing => listing.error = none → ∀ instanceId,
      account.Tagged (.compute instanceId) → .resource (.compute instanceId) ∈ present →
      ∃ item ∈ listing.pages.flatten, item.instanceId = instanceId ∧ item.state ≠ "terminated"
  | .describeVolumes, listing => listing.error = none → ∀ volumeId,
      account.Tagged (.volume volumeId) → .resource (.volume volumeId) ∈ present →
      ∃ item ∈ listing.pages.flatten, item.id = volumeId
  | .describeVpcs, reply => ∀ page, reply = .ok page → page.nextToken = none → ∀ vpcId,
      account.Tagged (.vpc vpcId) → .resource (.vpc vpcId) ∈ present →
      ∃ item ∈ page.items, item.id = vpcId
  | .listServerCertificates, listing => listing.error = none → ∀ name,
      .resource (.certificate name) ∈ present → name ∈ listing.pages.flatten
  | .listAliases, listing => listing.error = none → ∀ aliasName keyId,
      .alias aliasName keyId ∈ present → ∃ item ∈ listing.pages.flatten, item.aliasName = aliasName
  | .listBuckets, reply => ∀ page, reply = .ok page → page.nextToken = none → ∀ name,
      .resource (.bucket name) ∈ present → name ∈ page.items
  | .getBucketTagging bucket, reply => ∀ text, reply = .error (.client "NoSuchTagSet" text) →
      .resource (.bucket bucket) ∈ present → account.tags (.bucket bucket) = []
  | .listUsers, listing => listing.error = none → ∀ name,
      .resource (.user name) ∈ present → name ∈ listing.pages.flatten
  | .listUserTags userName, listing => listing.error = none → .resource (.user userName) ∈ present →
      ∀ tag ∈ account.tags (.user userName), tag ∈ listing.pages.flatten
  | _, _ => True

end Account

/-! ## Deletions -/

namespace SecurityCall

/-- What an accepted call removes. -/
def removes : SecurityCall → Set Thing
  | deleteLoadBalancer arn | deleteTargetGroup arn => {.resource (.elb arn)}
  | terminateInstances instanceIds =>
      {thing | ∃ instanceId ∈ instanceIds, thing = .resource (.compute instanceId)}
  | deleteVolume volumeId => {.resource (.volume volumeId)}
  | deleteRouteTable routeTableId => {.resource (.routeTable routeTableId)}
  | deleteSecurityGroup groupId => {.resource (.securityGroup groupId)}
  | deleteSubnet subnetId => {.resource (.subnet subnetId)}
  | detachInternetGateway gatewayId vpcId => {.attachment gatewayId vpcId}
  | deleteInternetGateway gatewayId => {.resource (.gateway gatewayId)}
  | deleteVpc vpcId => {.resource (.vpc vpcId)}
  | deleteServerCertificate name => {.resource (.certificate name)}
  | deleteAlias aliasName => {thing | ∃ keyId, thing = .alias aliasName keyId}
  | scheduleKeyDeletion keyId => {.resource (.key keyId)}
  | deleteBucket bucket => {.resource (.bucket bucket)}
  | deleteUser userName => {.resource (.user userName)}
  | _ => ∅

/-- The reply to a call which deletes. -/
def deletion : (call : SecurityCall) → call.Reply → Option (Except AwsError Unit)
  | .deleteLoadBalancer _, reply | .deleteTargetGroup _, reply | .terminateInstances _, reply
  | .deleteVolume _, reply | .deleteRouteTable _, reply | .deleteSecurityGroup _, reply
  | .deleteSubnet _, reply | .detachInternetGateway _ _, reply | .deleteInternetGateway _, reply
  | .deleteVpc _, reply | .deleteServerCertificate _, reply | .deleteAlias _, reply
  | .scheduleKeyDeletion _, reply | .deleteBucket _, reply | .deleteUser _, reply => some reply
  | _, _ => none

/-- The codes with which a call says that there is nothing to delete. -/
def goneCodes : SecurityCall → List String
  | deleteLoadBalancer _ => ["LoadBalancerNotFound"]
  | detachInternetGateway _ _ => "Gateway.NotAttached" :: alreadyGoneCodes
  | deleteAlias _ => ["NotFoundException"]
  | scheduleKeyDeletion _ => ["NotFoundException", "KMSInvalidStateException"]
  | _ => alreadyGoneCodes

end SecurityCall

/-- A call on an account. An accepted deletion takes effect, and nothing is said to be gone which is
there. -/
structure AccountStep (account : Account) (before : AccountState account) (call : SecurityCall)
    (reply : call.Reply) (after : AccountState account) : Prop where
  truthful : account.Truthful call reply
  complete : account.Complete before.present call reply
  accepted : call.deletion reply = some (.ok ()) → ∀ thing ∈ call.removes, thing ∉ after.present
  gone : ∀ code text, call.deletion reply = some (.error (.client code text)) →
    code ∈ call.goneCodes → ∀ thing ∈ call.removes, thing ∉ after.present
  shrinks : after.present ⊆ before.present

abbrev AccountExchange (account : Account) := Exchange (AccountState account) SecurityCall.Reply

/-! ## What may hide something -/

namespace Account

variable (account : Account)

/-- A reply hides nothing owned which is there: load balancers and target groups may be read, what is
read with one call is on its first page, and the tags of a user are read up to the one which says who
created it. -/
def Reveals (present : Set Thing) : (call : SecurityCall) → call.Reply → Prop
  | .describeLoadBalancers, listing => ∀ code text, listing.error = some (.client code text) →
      code ∈ elbv2ReadPermissionErrors → ∀ arn, account.isLoadBalancer arn →
      account.Owned (.elb arn) → .resource (.elb arn) ∉ present
  | .describeTargetGroups, listing => ∀ code text, listing.error = some (.client code text) →
      code ∈ elbv2ReadPermissionErrors → ∀ arn, account.isLoadBalancer arn = false →
      account.Owned (.elb arn) → .resource (.elb arn) ∉ present
  | .describeVpcs, reply => ∀ page, reply = .ok page → page.nextToken ≠ none → ∀ vpcId,
      account.Owned (.vpc vpcId) → .resource (.vpc vpcId) ∈ present →
      ∃ item ∈ page.items, item.id = vpcId
  | .listBuckets, reply => ∀ page, reply = .ok page → page.nextToken ≠ none → ∀ name,
      account.Owned (.bucket name) → .resource (.bucket name) ∈ present → name ∈ page.items
  | .listUserTags userName, listing => ∀ code text, listing.error = some (.client code text) →
      account.Owned (.user userName) → .resource (.user userName) ∈ present →
      ⟨"CreatedBy", "isvtest"⟩ ∈ listing.pages.flatten
  | _, _ => True

/-- Through what a key or a gateway is found: an alias of an owned name, or the attachment to an owned
VPC. -/
def handles : Resource → Set Thing
  | .key keyId => {thing | ∃ aliasName, thing = .alias aliasName keyId ∧ keyId ≠ "" ∧
      (aliasName, keyId) ∈ account.aliases ∧ Text.startsWith aliasName sec11KmsAliasPrefix}
  | .gateway gatewayId =>
      {thing | ∃ vpcId, thing = .attachment gatewayId vpcId ∧ account.Owned (.vpc vpcId)}
  | _ => ∅

/-- The sweeps can come across a resource. What may stand in a VPC has to stand in an owned one. -/
def Findable (present : Set Thing) : Resource → Prop
  | .key keyId => keyId ≠ "" ∧ ∃ aliasName, .alias aliasName keyId ∈ present ∧
      Text.startsWith aliasName sec11KmsAliasPrefix
  | .gateway gatewayId => ∃ vpcId, .attachment gatewayId vpcId ∈ present ∧ account.Owned (.vpc vpcId)
  | .routeTable routeTableId =>
      ∃ vpcId, account.vpcOf (.routeTable routeTableId) = some vpcId ∧ account.Owned (.vpc vpcId)
  | .securityGroup groupId =>
      ∃ vpcId, account.vpcOf (.securityGroup groupId) = some vpcId ∧ account.Owned (.vpc vpcId)
  | .subnet subnetId =>
      ∃ vpcId, account.vpcOf (.subnet subnetId) = some vpcId ∧ account.Owned (.vpc vpcId)
  | _ => True

/-- Nothing owned is hidden by an exchange, and nobody else takes its alias or attachment alone. -/
structure Smooth (exchange : AccountExchange account) : Prop where
  reveals : account.Reveals exchange.before.present exchange.op exchange.reply
  undisturbed : ∀ resource, account.Owned resource → ∀ handle ∈ account.handles resource,
    handle ∈ exchange.before.present → handle ∉ exchange.after.present →
    handle ∈ exchange.op.removes ∨ .resource resource ∉ exchange.after.present

end Account

/-! ## Rules -/

abbrev SmoothStep (account : Account) (before : AccountState account) (call : SecurityCall)
    (reply : call.Reply) (after : AccountState account) : Prop :=
  AccountStep account before call reply after ∧ account.Smooth ⟨before, call, reply, after⟩

/-- Executions of a part of the teardown, with smooth exchanges, which return a result. -/
abbrev Sweeps (account : Account) {α : Type} (before : AccountState account)
    (program : TeardownProgram α) (trace : List (AccountExchange account))
    (after : AccountState account) (result : α) : Prop :=
  Execution (SmoothStep account) before program trace after (.ok result)

/-- When a program returns such a result, a thing is gone. -/
def RemovesOn (account : Account) (thing : Thing) {α : Type} (returned : α → Prop)
    (program : TeardownProgram α) : Prop :=
  ∀ before trace after result, Sweeps account before program trace after result → returned result →
    thing ∉ after.present

/-- When a program returns such a result, then whatever it took the alias or the attachment of is
gone. -/
def FollowsOn (account : Account) {α : Type} (returned : α → Prop) (program : TeardownProgram α) :
    Prop :=
  ∀ before trace after result, Sweeps account before program trace after result → returned result →
    ∀ exchange ∈ trace, ∀ resource, ∀ handle ∈ account.handles resource,
      handle ∈ exchange.op.removes → .resource resource ∉ after.present

/-- A sweep which returns no errors has removed a thing. -/
abbrev Removes (account : Account) (thing : Thing) (sweep : TeardownProgram (List String)) : Prop :=
  RemovesOn account thing (· = []) sweep

abbrev Follows (account : Account) (sweep : TeardownProgram (List String)) : Prop :=
  FollowsOn account (· = []) sweep

/-- What is known of a result from the program alone. -/
abbrev Returns {α : Type} (result : α → Prop) (program : TeardownProgram α) : Prop :=
  program.Within (fun _ _ ↦ True) (fun _ ↦ True) result

section Rules

variable {account : Account} {thing : Thing}

/-- Nothing comes back. -/
theorem shrinks_of_execution {step : AccountState account → (call : SecurityCall) → call.Reply →
      AccountState account → Prop}
    (hstep : ∀ before call reply after, step before call reply after →
      after.present ⊆ before.present) {before after : AccountState account}
    {trace : List (AccountExchange account)} {α : Type} {program : TeardownProgram α}
    {outcome : Except AwsError α} (h : Execution step before program trace after outcome) :
    after.present ⊆ before.present := by
  induction h with
  | done | raise => exact subset_rfl
  | call made rest ih => exact ih.trans (hstep _ _ _ _ made)

theorem Sweeps.shrinks {before after : AccountState account} {trace : List (AccountExchange account)}
    {α : Type} {program : TeardownProgram α} {result : α}
    (h : Sweeps account before program trace after result) : after.present ⊆ before.present :=
  shrinks_of_execution (fun _ _ _ _ made ↦ made.1.shrinks) h

/-! ### Removing -/

section Removing

variable {α β : Type} {P : α → Prop} {Q : β → Prop} {program : TeardownProgram α}
  {f : α → TeardownProgram β}

theorem removesOn_done {result : α} (h : ¬ P result) : RemovesOn account thing P (.done result) := by
  intro before trace after value hsweeps hvalue
  have ⟨_, _, heq⟩ := Execution.done_iff.mp hsweeps
  exact absurd (Except.ok.inj heq ▸ hvalue) h

theorem removesOn_raise (error : AwsError) : RemovesOn account thing P (.raise error) := by
  intro before trace after value hsweeps _
  have ⟨_, _, heq⟩ := Execution.raise_iff.mp hsweeps
  cases heq

/-- It is enough to look at replies after which the thing is still there. -/
theorem removesOn_call {call : SecurityCall} {next : call.Reply → TeardownProgram α}
    (h : ∀ before reply after, SmoothStep account before call reply after → thing ∈ after.present →
      RemovesOn account thing P (next reply)) : RemovesOn account thing P (.call call next) := by
  intro before trace after result hsweeps hresult hthing
  have ⟨reply, middle, rest, hstep, _, hrest⟩ := Execution.call_iff.mp hsweeps
  exact h before reply middle hstep (Sweeps.shrinks hrest hthing) middle rest after result hrest
    hresult hthing

/-- A thing is removed by the first of two programs, if the second tells so by its result, or by the
second. -/
theorem RemovesOn.bind_or (h : RemovesOn account thing P program)
    (hrest : ∀ value, Returns (fun result ↦ Q result → P value) (f value) ∨
      RemovesOn account thing Q (f value)) : RemovesOn account thing Q (program.bind f) := by
  intro before trace after result hsweeps hQ
  have ⟨firsts, value, middle, seconds, _, hfirst, hsecond⟩ := Execution.bind_ok_iff.mp hsweeps
  rcases hrest value with hresult | hremoves
  · have hP : P value := hresult.returns_result (fun _ _ _ _ _ ↦ trivial) hsecond hQ
    exact fun hthing ↦ h before firsts middle value hfirst hP (Sweeps.shrinks hsecond hthing)
  · exact hremoves middle seconds after result hsecond hQ

theorem RemovesOn.bind (h : RemovesOn account thing P program)
    (hresult : ∀ value, Returns (fun result ↦ Q result → P value) (f value)) :
    RemovesOn account thing Q (program.bind f) :=
  h.bind_or fun value ↦ .inl (hresult value)

theorem removesOn_bind (h : ∀ value, RemovesOn account thing Q (f value)) :
    RemovesOn account thing Q (program.bind f) :=
  RemovesOn.bind_or (P := fun _ ↦ False) (fun _ _ _ _ _ ↦ False.elim) fun value ↦ .inr (h value)

theorem RemovesOn.attempt (h : RemovesOn account thing P program) :
    RemovesOn account thing (fun outcome ↦ ∃ value, outcome = .ok value ∧ P value)
      (program.attempt : TeardownProgram (Except AwsError α)) := by
  intro before trace after outcome hsweeps ⟨value, houtcome, hvalue⟩
  have ⟨result, heq, hprogram⟩ := Execution.attempt_iff.mp hsweeps
  rw [← Except.ok.inj heq, houtcome] at hprogram
  exact h before trace after value hprogram hvalue

theorem removesOn_onReply {reply : Except AwsError β} {next : β → TeardownProgram α}
    {handle : String → String → TeardownProgram α}
    (hnext : ∀ response, reply = .ok response → RemovesOn account thing P (next response))
    (hhandle : ∀ code text, reply = .error (.client code text) →
      RemovesOn account thing P (handle code text)) :
    RemovesOn account thing P (onReply reply next handle) := by
  unfold onReply
  split
  · exact hnext _ rfl
  · exact hhandle _ _ rfl
  · exact removesOn_raise _

end Removing

theorem returns_append {errors : List String} {second : TeardownProgram (List String)} :
    Returns (fun result ↦ result = [] → errors = [])
      (second.bind fun others ↦ .done (errors ++ others)) :=
  (Program.Within.all second).bind fun _ _ ↦ .done fun h ↦ (List.append_eq_nil_iff.mp h).1

theorem Removes.append_left {first second : TeardownProgram (List String)}
    (h : Removes account thing first) :
    Removes account thing
      (first.bind fun errors ↦ second.bind fun others ↦ .done (errors ++ others)) :=
  h.bind fun _ ↦ returns_append

theorem Removes.after {sweep : TeardownProgram (List String)} (h : Removes account thing sweep)
    (errors : List String) :
    Removes account thing (sweep.bind fun others ↦ .done (errors ++ others)) :=
  h.bind fun _ ↦ .done fun hempty ↦ (List.append_eq_nil_iff.mp hempty).2

theorem removes_collect {α : Type} {sweep : α → TeardownProgram (List String)} {items : List α}
    {item : α} (hitem : item ∈ items) (h : Removes account thing (sweep item)) :
    Removes account thing (collect sweep items) := by
  induction items with
  | nil => exact absurd hitem List.not_mem_nil
  | cons first rest ih =>
    rcases List.mem_cons.mp hitem with heq | hrest
    · exact Removes.append_left (heq ▸ h)
    · exact removesOn_bind fun errors ↦ (ih hrest).after errors

/-- A listing which ends with an error is not swept without errors. -/
theorem removes_sweepPages {α : Type} {listing : Listing α}
    {sweep : α → TeardownProgram (List String)}
    (h : listing.error = none → ∃ item ∈ listing.pages.flatten, Removes account thing (sweep item)) :
    Removes account thing (sweepPages listing sweep) := by
  unfold sweepPages
  cases herror : listing.error with
  | none =>
    have ⟨item, hitem, hsweep⟩ := h herror
    exact (removes_collect hitem hsweep).bind fun errors ↦ .done fun hempty ↦ hempty
  | some error => exact removesOn_bind fun _ ↦ removesOn_raise error

/-! ### Deleting -/

/-- A call which succeeds, or which is told that there is nothing to delete, leaves a thing no more. -/
def Deletes (account : Account) (thing : Thing) (call : TeardownProgram Unit) : Prop :=
  RemovesOn account thing (fun outcome ↦ ∀ error, outcome = .error error →
      ∃ code ∈ alreadyGoneCodes, ∃ text, error = .client code text)
    (call.attempt : TeardownProgram (Except AwsError Unit))

theorem deletes_call (call : SecurityCall) {next : call.Reply → TeardownProgram Unit}
    (hthing : thing ∈ call.removes) (hcodes : alreadyGoneCodes ⊆ call.goneCodes)
    (hnext : ∀ reply, ∃ result, call.deletion reply = some result ∧ next reply = .ofExcept result) :
    Deletes account thing (.call call next) := by
  apply removesOn_call
  intro before reply after ⟨hstep, _⟩ hthere middle trace last outcome hsweeps hgone
  have ⟨result, hdeletion, heq⟩ := hnext reply
  rw [heq] at hsweeps
  have ⟨_, houtcome, hresult⟩ := Execution.attempt_iff.mp hsweeps
  have ⟨_, _, hsame⟩ := Execution.ofExcept_iff.mp hresult
  rw [← Except.ok.inj houtcome] at hsame
  cases hsucceeded : result with
  | ok value =>
    rw [hsucceeded] at hdeletion
    exact absurd hthere (hstep.accepted hdeletion thing hthing)
  | error error =>
    have ⟨code, hcode, text, herror⟩ := hgone error (hsame.trans hsucceeded)
    rw [hsucceeded, herror] at hdeletion
    exact absurd hthere (hstep.gone code text hdeletion (hcodes hcode) thing hthing)

section Deleting

variable {call : TeardownProgram Unit}

theorem Deletes.deleteWithRetry (h : Deletes account thing call) (codes : List String)
    (attempts : ℕ) :
    RemovesOn account thing (· = true) (deleteWithRetry call codes attempts) := by
  induction attempts with
  | zero => exact removesOn_done Bool.false_ne_true
  | succ attempts ih =>
    intro before trace after deleted hsweeps hdeleted
    have ⟨firsts, outcome, middle, rest, _, hfirst, hrest⟩ := Execution.bind_ok_iff.mp hsweeps
    have hgone := h before firsts middle outcome hfirst
    split at hrest
    · exact fun hthing ↦ hgone (by simp) (Sweeps.shrinks hrest hthing)
    next code text =>
      split at hrest
      next hcode =>
        exact fun hthing ↦ hgone (by simpa using hcode) (Sweeps.shrinks hrest hthing)
      · split at hrest
        · exact ih middle rest after deleted hrest hdeleted
        · simp [hdeleted] at hrest
    · simp [hdeleted] at hrest
    · split at hrest
      · exact ih middle rest after deleted hrest hdeleted
      · simp [hdeleted] at hrest

theorem Deletes.deleteOr (h : Deletes account thing call) (error : String) :
    Removes account thing (deleteOr error call) := by
  apply (h.deleteWithRetry transientAwsCodes 3).bind
  intro deleted
  cases deleted <;> exact .done (by simp)

theorem Deletes.releaseOr (h : Deletes account thing call) (error : String) (codes : List String) :
    Removes account thing (releaseOr error call codes) := by
  apply (h.deleteWithRetry codes nlbResourceReleaseRetryAttempts).bind
  intro deleted
  cases deleted <;> exact .done (by simp)

theorem Deletes.callOr (h : Deletes account thing call) (message : String) :
    Removes account thing (callOr message call) := by
  apply RemovesOn.bind h
  intro outcome
  split
  · exact .done (by simp)
  · exact .done (by simp)
  · exact .raise _

end Deleting

/-! ### Following -/

/-- A call which takes neither an alias nor an attachment. -/
def TakesResources (call : SecurityCall) : Prop :=
  ∀ thing ∈ call.removes, ∃ resource, thing = .resource resource

theorem ne_resource_of_handle {resource : Resource} {handle : Thing}
    (h : handle ∈ account.handles resource) (other : Resource) : handle ≠ .resource other := by
  cases resource with
  | key keyId =>
    have ⟨aliasName, heq, _⟩ := h
    simp [heq]
  | gateway gatewayId =>
    have ⟨vpcId, heq, _⟩ := h
    simp [heq]
  | _ => exact absurd h (Set.notMem_empty _)

section Following

variable {α β : Type} {P : α → Prop} {Q : β → Prop} {program : TeardownProgram α}
  {f : α → TeardownProgram β}

/-- What a program may take the alias or the attachment of, it removes. -/
theorem followsOn_of_removes (allowed : SecurityCall → Prop)
    (hcalls : program.Within (fun _ _ ↦ True) allowed fun _ ↦ True)
    (h : ∀ call, allowed call → ∀ resource, ∀ handle ∈ account.handles resource,
      handle ∈ call.removes → RemovesOn account (.resource resource) P program) :
    FollowsOn account P program := by
  intro before trace after result hsweeps hresult exchange hmem resource handle hhandle hremoves
  have hallowed := hcalls.mem_trace (fun _ _ _ _ _ ↦ trivial) hsweeps exchange hmem
  exact h exchange.op hallowed resource handle hhandle hremoves before trace after result hsweeps
    hresult

theorem followsOn_of_takesResources
    (h : program.Within (fun _ _ ↦ True) TakesResources fun _ ↦ True) :
    FollowsOn account P program := by
  apply followsOn_of_removes TakesResources h
  intro call htakes resource handle hhandle hremoves
  have ⟨other, heq⟩ := htakes handle hremoves
  exact absurd heq (ne_resource_of_handle hhandle other)

theorem FollowsOn.bind (h : FollowsOn account P program)
    (hrest : ∀ value, FollowsOn account Q (f value))
    (hresult : ∀ value, Returns (fun result ↦ Q result → P value) (f value)) :
    FollowsOn account Q (program.bind f) := by
  intro before trace after result hsweeps hQ exchange hmem resource handle hhandle hremoves
  have ⟨firsts, value, middle, seconds, htrace, hfirst, hsecond⟩ := Execution.bind_ok_iff.mp hsweeps
  have hP : P value := (hresult value).returns_result (fun _ _ _ _ _ ↦ trivial) hsecond hQ
  rw [htrace] at hmem
  rcases List.mem_append.mp hmem with hmem | hmem
  · have hgone := h before firsts middle value hfirst hP exchange hmem resource handle hhandle hremoves
    exact fun hthere ↦ hgone (Sweeps.shrinks hsecond hthere)
  · exact hrest value middle seconds after result hsecond hQ exchange hmem resource handle hhandle
      hremoves

theorem followsOn_steady_bind
    (h : program.Within (fun _ _ ↦ True) TakesResources fun _ ↦ True)
    (hrest : ∀ value, FollowsOn account Q (f value)) : FollowsOn account Q (program.bind f) :=
  FollowsOn.bind (P := fun _ ↦ True) (followsOn_of_takesResources h) hrest
    fun value ↦ (Program.Within.all (f value)).mono fun _ _ _ ↦ trivial

theorem FollowsOn.attempt (h : FollowsOn account P program) :
    FollowsOn account (fun outcome ↦ ∃ value, outcome = .ok value ∧ P value)
      (program.attempt : TeardownProgram (Except AwsError α)) := by
  intro before trace after outcome hsweeps ⟨value, houtcome, hvalue⟩
  have ⟨result, heq, hprogram⟩ := Execution.attempt_iff.mp hsweeps
  rw [← Except.ok.inj heq, houtcome] at hprogram
  exact h before trace after value hprogram hvalue

/-- The honesty of a reply may be used for what comes after it. -/
theorem followsOn_call {call : SecurityCall} {next : call.Reply → TeardownProgram α}
    (hcall : TakesResources call)
    (hnext : ∀ before reply after, SmoothStep account before call reply after →
      FollowsOn account P (next reply)) : FollowsOn account P (.call call next) := by
  intro before trace after result hsweeps hresult exchange hmem resource handle hhandle hremoves
  have ⟨reply, middle, rest, hstep, htrace, hrest⟩ := Execution.call_iff.mp hsweeps
  rw [htrace] at hmem
  rcases List.mem_cons.mp hmem with heq | hmem
  · rw [heq] at hremoves
    have ⟨other, hother⟩ := hcall handle hremoves
    exact absurd hother (ne_resource_of_handle hhandle other)
  · exact hnext before reply middle hstep middle rest after result hrest hresult exchange hmem resource
      handle hhandle hremoves

end Following

theorem follows_done (errors : List String) : Follows account (.done errors) :=
  followsOn_of_takesResources (.done trivial)

theorem follows_collect {α : Type} {sweep : α → TeardownProgram (List String)} {items : List α}
    (h : ∀ item ∈ items, Follows account (sweep item)) : Follows account (collect sweep items) := by
  induction items with
  | nil => exact follows_done []
  | cons item rest ih =>
    have ⟨hitem, hrest⟩ := List.forall_mem_cons.mp h
    apply hitem.bind ?_ fun _ ↦ returns_append
    intro errors
    exact (ih hrest).bind (fun _ ↦ follows_done _)
      fun _ ↦ .done fun hempty ↦ (List.append_eq_nil_iff.mp hempty).2

end Rules

end IsvValidation.Security
