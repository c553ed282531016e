import Mathlib.Data.Set.Insert
import IsvValidation.Security.NothingLeft

/-!
# What a successful teardown leaves

A key and a gateway are removed after their alias and their attachment, through which they are found.
A run which is refused half-way reports a failure, but leaves what no later run finds.
-/

namespace IsvValidation.Security

open Host Library
open Aws (AwsError alreadyGoneCodes classifyAwsError)

variable {account : Account}

/-! ## Aliases and attachments -/

/-- A program which takes neither an alias nor an attachment. -/
abbrev Steady {α : Type} (program : TeardownProgram α) : Prop :=
  program.Within (fun _ _ ↦ True) TakesResources fun _ ↦ True

/-- Only an alias and an attachment are no resources. -/
theorem takesResources {call : SecurityCall} (halias : ∀ aliasName, call ≠ .deleteAlias aliasName)
    (hdetach : ∀ gatewayId vpcId, call ≠ .detachInternetGateway gatewayId vpcId) :
    TakesResources call := by
  intro thing hthing
  cases call with
  | deleteAlias aliasName => exact absurd rfl (halias aliasName)
  | detachInternetGateway gatewayId vpcId => exact absurd rfl (hdetach gatewayId vpcId)
  | terminateInstances instanceIds =>
    have ⟨instanceId, _, heq⟩ := hthing
    exact ⟨_, heq⟩
  | _ => first | exact ⟨_, hthing⟩ | exact absurd hthing (Set.notMem_empty thing)

theorem takesResources_of_harmless (call : SecurityCall) (h : call.Harmless) :
    TakesResources call := by
  apply takesResources
  · intro aliasName heq
    rwa [heq] at h
  · intro gatewayId vpcId heq
    rwa [heq] at h

theorem steady_loadBalancers : Steady cleanupOwnedLoadBalancers :=
  within_loadBalancers takesResources_of_harmless
    fun _ _ _ _ _ _ ↦ takesResources (by simp) (by simp)

theorem steady_targetGroups : Steady cleanupOwnedTargetGroups :=
  within_targetGroups takesResources_of_harmless
    fun _ _ _ _ _ _ ↦ takesResources (by simp) (by simp)

theorem steady_instances : Steady cleanupOwnedInstances :=
  within_instances takesResources_of_harmless fun _ _ _ _ ↦ takesResources (by simp) (by simp)

theorem steady_volumes : Steady cleanupOwnedVolumes :=
  within_volumes takesResources_of_harmless fun _ _ _ _ _ ↦ takesResources (by simp) (by simp)

theorem steady_certificates : Steady cleanupOwnedIamServerCerts :=
  within_certificates takesResources_of_harmless
    fun _ _ _ _ _ ↦ takesResources (by simp) (by simp)

theorem steady_buckets : Steady cleanupOwnedBuckets := by
  apply within_buckets takesResources_of_harmless
  intro _ _ _ _ _
  exact ⟨fun _ ↦ takesResources (by simp) (by simp), takesResources (by simp) (by simp)⟩

theorem steady_users : Steady sweepIamUsers := by
  apply within_users takesResources_of_harmless
  intro _ _ _ _ _
  exact ⟨fun _ ↦ takesResources (by simp) (by simp), fun _ ↦ takesResources (by simp) (by simp),
    takesResources (by simp) (by simp)⟩

/-- A detached gateway is deleted. -/
theorem follows_gateway (vpcId gatewayId : String) :
    Follows account (cleanupInternetGateway vpcId gatewayId) := by
  apply followsOn_of_removes (fun call ↦
    call = .detachInternetGateway gatewayId vpcId ∨ call = .deleteInternetGateway gatewayId)
  · exact within_gateway (.inl rfl) (.inr rfl)
  intro call hcall resource handle hhandle hremoves
  rcases hcall with hdetach | hdelete
  · rw [hdetach] at hremoves
    have hresource : resource = .gateway gatewayId := by
      cases resource with
      | gateway other =>
        have ⟨_, heq, _⟩ := hhandle
        have hsame := heq.symm.trans hremoves
        cases hsame
        rfl
      | key keyId =>
        have ⟨_, heq, _⟩ := hhandle
        cases heq.symm.trans hremoves
      | _ => exact absurd hhandle (Set.notMem_empty _)
    rw [hresource]
    apply removesOn_bind
    intro errors
    apply Removes.after
    apply Deletes.releaseOr
    exact deletes_call (.deleteInternetGateway gatewayId) rfl (List.Subset.refl _)
      fun reply ↦ ⟨reply, rfl, rfl⟩
  · rw [hdelete] at hremoves
    exact absurd hremoves (ne_resource_of_handle hhandle _)

/-- Before the gateways of a VPC, and after them, only resources are deleted. -/
theorem follows_cleanupVpc (vpcId : String) : Follows account (cleanupVpc vpcId) := by
  apply followsOn_steady_bind
    (within_single (takesResources_of_harmless (.describeRouteTables vpcId) trivial)
      fun reply ↦ ⟨reply, rfl⟩)
  intro tables
  apply followsOn_steady_bind
  · apply within_collect
    intro table _
    exact within_routeTable (takesResources (by simp) (by simp))
      fun _ _ ↦ takesResources (by simp) (by simp)
  intro tableErrors
  apply followsOn_steady_bind
    (within_single (takesResources_of_harmless (.describeSecurityGroups vpcId) trivial)
      fun reply ↦ ⟨reply, rfl⟩)
  intro groups
  apply followsOn_steady_bind
  · exact within_collect fun _ _ ↦ within_securityGroup (takesResources (by simp) (by simp))
  intro groupErrors
  apply followsOn_steady_bind
    (within_single (takesResources_of_harmless (.describeSubnets vpcId) trivial)
      fun reply ↦ ⟨reply, rfl⟩)
  intro subnets
  apply followsOn_steady_bind
  · apply within_collect
    intro subnetId _
    exact within_releaseOr (within_single (takesResources (by simp) (by simp))
      fun reply ↦ ⟨reply, rfl⟩)
  intro subnetErrors
  apply followsOn_steady_bind
    (within_single (takesResources_of_harmless (.describeInternetGateways vpcId) trivial)
      fun reply ↦ ⟨reply, rfl⟩)
  intro gateways
  apply FollowsOn.bind (follows_collect fun gatewayId _ ↦ follows_gateway vpcId gatewayId)
  · intro gatewayErrors
    apply followsOn_steady_bind
    · exact within_releaseOr (within_single (takesResources (by simp) (by simp))
        fun reply ↦ ⟨reply, rfl⟩)
    · intro vpcErrors
      exact follows_done _
  · intro gatewayErrors
    apply (Program.Within.all _).bind
    intro vpcErrors _
    exact .done (by simp +contextual)

theorem follows_vpcs : Follows account cleanupOwnedVpcs := by
  apply followsOn_steady_bind
    (within_single (takesResources_of_harmless .describeVpcs trivial) fun reply ↦ ⟨reply, rfl⟩)
  intro vpcs
  apply follows_collect
  intro vpc _
  split
  · exact follows_cleanupVpc vpc.id
  · exact follows_done []

/-- The key whose alias is deleted is scheduled for deletion. -/
theorem follows_alias {item : KeyAlias} (hlisted : (item.aliasName, item.targetKeyId) ∈ account.aliases) :
    Follows account (cleanupAlias item) := by
  apply followsOn_of_removes (fun call ↦
    call = .deleteAlias item.aliasName ∨ call = .scheduleKeyDeletion item.targetKeyId)
  · exact within_alias (.inl rfl) (.inr rfl)
  intro call hcall resource handle hhandle hremoves
  rcases hcall with hdelete | hschedule
  · rw [hdelete] at hremoves
    have ⟨other, hother⟩ := hremoves
    cases resource with
    | key keyId =>
      have ⟨aliasName, heq, hkey, halias, _⟩ := hhandle
      cases heq.symm.trans hother
      have hsame := account.alias_unique _ _ _ halias hlisted
      rw [hsame] at hkey ⊢
      exact removes_key hkey
    | gateway gatewayId =>
      have ⟨_, heq, _⟩ := hhandle
      cases heq.symm.trans hother
    | _ => exact absurd hhandle (Set.notMem_empty _)
  · rw [hschedule] at hremoves
    exact absurd hremoves (ne_resource_of_handle hhandle _)

theorem follows_kms : Follows account cleanupOwnedKms := by
  apply followsOn_call (takesResources_of_harmless .listAliases trivial)
  intro before listing after ⟨hstep, _⟩
  have hsweep : Follows account (collect (fun item : KeyAlias ↦
      if Text.startsWith item.aliasName sec11KmsAliasPrefix then cleanupAlias item else .done [])
      listing.pages.flatten) := by
    apply follows_collect
    intro item hitem
    split
    · exact follows_alias (hstep.truthful item hitem)
    · exact follows_done []
  apply hsweep.bind
  · intro errors
    split
    · exact follows_done errors
    · exact followsOn_of_takesResources (.raise _)
  · intro errors
    split
    · exact .done fun h ↦ h
    · exact .raise _

/-! ## A whole run -/

/-- The outcome of one sweep, which goes on with the others only when it returned. -/
theorem returns_of_outcome (outcome : Except AwsError (List String))
    (rest : List (TeardownProgram (List String))) :
    Returns (fun result ↦ result = [] → ∃ errors, outcome = .ok errors ∧ errors = [])
      (match outcome with
        | .ok errors => (sweepResources rest).bind fun others ↦ .done (errors ++ others)
        | .error (.client _ text) => .done [text]
        | .error error => .raise error) := by
  split
  next errors => exact returns_append.mono fun result hresult hempty ↦ ⟨errors, rfl, hresult hempty⟩
  · exact .done (by simp)
  · exact .raise _

theorem removes_sweepResources {thing : Thing} {sweeps : List (TeardownProgram (List String))}
    {sweep : TeardownProgram (List String)} (hmem : sweep ∈ sweeps) (h : Removes account thing sweep) :
    Removes account thing (sweepResources sweeps) := by
  induction sweeps with
  | nil => exact absurd hmem List.not_mem_nil
  | cons first rest ih =>
    rcases List.mem_cons.mp hmem with heq | hrest
    · rw [heq] at h
      exact h.attempt.bind fun outcome ↦ returns_of_outcome outcome rest
    · apply removesOn_bind
      intro outcome
      split
      · exact (ih hrest).after _
      · exact removesOn_done (by simp)
      · exact removesOn_raise _

theorem follows_sweepResources {sweeps : List (TeardownProgram (List String))}
    (h : ∀ sweep ∈ sweeps, Follows account sweep) : Follows account (sweepResources sweeps) := by
  induction sweeps with
  | nil => exact follows_done []
  | cons first rest ih =>
    have ⟨hfirst, hrest⟩ := List.forall_mem_cons.mp h
    apply hfirst.attempt.bind ?_ fun outcome ↦ returns_of_outcome outcome rest
    intro outcome
    split
    · exact (ih hrest).bind (fun _ ↦ follows_done _)
        fun _ ↦ .done fun hempty ↦ (List.append_eq_nil_iff.mp hempty).2
    · exact follows_done _
    · exact followsOn_of_takesResources (.raise _)

/-- A report of success has no errors to report. -/
theorem nil_of_success {userError : Option String} {users : UserSweep} {resourceErrors : List String}
    (h : (teardownReport userError users resourceErrors).success = true) :
    userError = none ∧ users.failedResources = [] ∧ resourceErrors = [] := by
  have ⟨hmessages, herror⟩ := of_decide_eq_true h
  have ⟨husers, hresources⟩ := List.append_eq_nil_iff.mp hmessages
  refine ⟨herror, ?_, ?_⟩
  · by_contra hne
    simp [hne] at husers
  · by_contra hne
    simp [hne] at hresources

/-- A run which reports success has collected no errors from its sweeps. -/
theorem returns_resourceErrors (resourceErrors : List String) :
    Returns (fun report ↦ report.success = true → resourceErrors = [])
      ((sweepIamUsers.attempt : TeardownProgram (Except AwsError UserSweep)).bind fun
        | .ok users => .done (teardownReport none users resourceErrors)
        | .error (.client _ text) => .done (teardownReport (some text) {} resourceErrors)
        | .error error => .raise error) := by
  apply (Program.Within.all _).bind
  intro outcome _
  split
  · exact .done fun h ↦ (nil_of_success h).2.2
  · exact .done fun h ↦ (nil_of_success h).2.2
  · exact .raise _

/-- The report of `main` is a success only when the teardown returned one. -/
theorem returns_main (outcome : Except AwsError TeardownReport) :
    Returns (fun report ↦ report.success = true →
        ∃ returned, outcome = .ok returned ∧ returned.success = true)
      (match outcome with
        | .ok report => (.done report : TeardownProgram TeardownReport)
        | .error error =>
          let (errorType, message) := classifyAwsError error;
          .done { success := false, errorType := some errorType, error := some message }) := by
  split
  next report => exact .done fun h ↦ ⟨report, rfl, h⟩
  · exact .done (by simp)

theorem removes_main {thing : Thing}
    (h : (∃ sweep ∈ resourceSweeps, Removes account thing sweep) ∨
      RemovesOn account thing (fun users ↦ users.failedResources = []) sweepIamUsers) :
    RemovesOn account thing (fun report ↦ report.success = true) (main false) := by
  have hteardown : RemovesOn account thing (fun report ↦ report.success = true)
      (securityTeardown false) := by
    apply removesOn_bind
    intro _
    rcases h with ⟨sweep, hmem, hsweep⟩ | husers
    · exact (removes_sweepResources hmem hsweep).bind returns_resourceErrors
    · apply removesOn_bind
      intro resourceErrors
      apply husers.attempt.bind
      intro outcome
      split
      next users => exact .done fun hsuccess ↦ ⟨users, rfl, (nil_of_success hsuccess).2.1⟩
      · apply Program.Within.done
        intro hsuccess
        have ⟨hnone, _⟩ := nil_of_success hsuccess
        cases hnone
      · exact .raise _
  exact hteardown.attempt.bind returns_main

theorem follows_main : FollowsOn account (fun report ↦ report.success = true) (main false) := by
  have hsweeps : ∀ sweep ∈ resourceSweeps, Follows account sweep := by
    simp only [resourceSweeps, List.forall_mem_cons, List.not_mem_nil, IsEmpty.forall_iff,
      implies_true, and_true]
    exact ⟨followsOn_of_takesResources steady_loadBalancers,
      followsOn_of_takesResources steady_targetGroups, followsOn_of_takesResources steady_instances,
      followsOn_of_takesResources steady_volumes, follows_vpcs,
      followsOn_of_takesResources steady_certificates, follows_kms,
      followsOn_of_takesResources steady_buckets⟩
  have hteardown : FollowsOn account (fun report ↦ report.success = true) (securityTeardown false) := by
    apply followsOn_steady_bind
      (within_createClients fun service _ ↦ takesResources_of_harmless (.client service) trivial)
    intro _
    apply (follows_sweepResources hsweeps).bind ?_ returns_resourceErrors
    intro resourceErrors
    apply followsOn_of_takesResources
    apply steady_users.attempt.bind
    intro outcome _
    split <;> trivial
  apply hteardown.attempt.bind ?_ returns_main
  intro outcome
  apply followsOn_of_takesResources
  split <;> trivial

/-! ## Runs -/

/-- A run on an account, with all its exchanges and what it prints. -/
structure AccountRun (account : Account) where
  before : AccountState account
  after : AccountState account
  trace : List (AccountExchange account)
  report : TeardownReport
  execution : Execution (AccountStep account) before (main false) trace after (.ok report)

/-- The states which runs lead to, in any number; in between somebody else may remove things. -/
inductive Reached (account : Account) : AccountState account → Prop where
  | start (state : AccountState account) (h : state.present = account.things) : Reached account state
  | run (run : AccountRun account) (h : Reached account run.before) : Reached account run.after
  | removed {before after : AccountState account} (h : Reached account before)
      (hsubset : after.present ⊆ before.present) : Reached account after

theorem AccountRun.shrinks (run : AccountRun account) : run.after.present ⊆ run.before.present :=
  shrinks_of_execution (fun _ _ _ _ made ↦ made.shrinks) run.execution

/-- If the run reports success, nothing owned is left. -/
def AccountRun.LeavesNothingOwned (run : AccountRun account) : Prop :=
  run.report.success = true → ∀ resource, account.Owned resource →
    .resource resource ∉ run.after.present

theorem Reached.present_subset {state : AccountState account} (h : Reached account state) :
    state.present ⊆ account.things := by
  induction h with
  | start state h => exact h.subset
  | run run h ih => exact run.shrinks.trans ih
  | removed h hsubset ih => exact hsubset.trans ih

section LastRun

variable {run : AccountRun account} (hsmooth : ∀ exchange ∈ run.trace, account.Smooth exchange)
  (hsuccess : run.report.success = true)

include hsmooth hsuccess

theorem notMem_of_removes {thing : Thing}
    (h : (∃ sweep ∈ resourceSweeps, Removes account thing sweep) ∨
      RemovesOn account thing (fun users ↦ users.failedResources = []) sweepIamUsers) :
    thing ∉ run.after.present :=
  removes_main h run.before run.trace run.after run.report (run.execution.restrict hsmooth) hsuccess

/-- What is found through an alias or an attachment is gone when that is. -/
theorem notMem_of_handle {resource : Resource} (howned : account.Owned resource) {handle : Thing}
    (hhandle : handle ∈ account.handles resource) (hbefore : handle ∈ run.before.present)
    (hafter : handle ∉ run.after.present) : .resource resource ∉ run.after.present := by
  have hexecution := run.execution.restrict hsmooth
  intro hthere
  have ⟨exchange, hmem, hhad, hlost⟩ := run.execution.exists_change
    (P := fun state ↦ handle ∉ state.present) (not_not_intro hbefore) hafter
  rcases (hsmooth exchange hmem).undisturbed resource howned handle hhandle (not_not.mp hhad) hlost with
    hremoves | hgone
  · exact follows_main run.before run.trace run.after run.report hexecution hsuccess exchange hmem
      resource handle hhandle hremoves hthere
  · apply run.execution.persists_from (P := fun state ↦ Thing.resource resource ∉ state.present) ?_ hmem
      hgone hthere
    intro other hother habsent hpresent
    exact habsent ((run.execution.step_of_mem other hother).shrinks hpresent)

theorem notMem_inside {resource : Resource} {vpcId : String}
    (hinside : account.vpcOf resource = some vpcId) (howned : account.Owned (.vpc vpcId)) :
    .resource resource ∉ run.after.present := by
  intro hthere
  have hvpc : .resource (.vpc vpcId) ∉ run.after.present :=
    notMem_of_removes hsmooth hsuccess
      (.inl ⟨cleanupOwnedVpcs, by simp [resourceSweeps], removes_vpc howned⟩)
  exact hvpc (run.after.inside resource vpcId hinside hthere)

end LastRun

/-- A run which reports success leaves nothing owned, when what was still there could be found and no
reply hid it. -/
theorem securityTeardown_leavesNothingOwned (run : AccountRun account)
    (hreached : Reached account run.before)
    (hfindable : ∀ resource, account.Owned resource → .resource resource ∈ run.before.present →
      account.Findable run.before.present resource)
    (hsmooth : ∀ exchange ∈ run.trace, account.Smooth exchange) : run.LeavesNothingOwned := by
  intro hsuccess resource howned hthere
  have hsweep {thing : Thing} {sweep : TeardownProgram (List String)} (hmem : sweep ∈ resourceSweeps)
      (h : Removes account thing sweep) : thing ∉ run.after.present :=
    notMem_of_removes hsmooth hsuccess (.inl ⟨sweep, hmem, h⟩)
  have hfound := hfindable resource howned (run.shrinks hthere)
  revert hthere
  cases resource with
  | elb arn =>
    cases hkind : account.isLoadBalancer arn with
    | true => exact hsweep (by simp [resourceSweeps]) (removes_loadBalancer howned hkind)
    | false => exact hsweep (by simp [resourceSweeps]) (removes_targetGroup howned hkind)
  | compute instanceId => exact hsweep (by simp [resourceSweeps]) (removes_instance howned)
  | volume volumeId => exact hsweep (by simp [resourceSweeps]) (removes_volume howned)
  | vpc vpcId => exact hsweep (by simp [resourceSweeps]) (removes_vpc howned)
  | routeTable _ | securityGroup _ | subnet _ =>
    obtain ⟨vpcId, hinside, hvpc⟩ := hfound
    exact notMem_inside hsmooth hsuccess hinside hvpc
  | gateway gatewayId =>
    obtain ⟨vpcId, hattached, hvpc⟩ := hfound
    apply notMem_of_handle hsmooth hsuccess howned ⟨vpcId, rfl, hvpc⟩ hattached
    intro hstill
    exact hsweep (by simp [resourceSweeps]) (removes_vpc hvpc) (run.after.attached _ _ hstill)
  | certificate name => exact hsweep (by simp [resourceSweeps]) (removes_certificate howned)
  | key keyId =>
    obtain ⟨hkey, aliasName, halias, hname⟩ := hfound
    have hlisted : (aliasName, keyId) ∈ account.aliases := hreached.present_subset halias
    apply notMem_of_handle hsmooth hsuccess howned ⟨aliasName, rfl, hkey, hlisted, hname⟩ halias
    exact hsweep (by simp [resourceSweeps]) (removes_alias hname)
  | bucket name => exact hsweep (by simp [resourceSweeps]) (removes_bucket howned)
  | user name => exact notMem_of_removes hsmooth hsuccess (.inr (removes_user howned))

/-! ## One resource -/

/-- An account with one resource, which is not in a VPC. -/
def loneAccount (resource : Resource) (tags : List Tag) (h : (tags.map Tag.key).Nodup) : Account where
  resources := {resource}
  tags other := if other = resource then tags else []
  nodup_keys other := by
    split
    · exact h
    · exact List.nodup_nil
  isLoadBalancer _ := false
  vpcOf _ := none
  associationOf _ := none
  attached := ∅
  aliases := ∅
  alias_unique _ _ _ h := absurd h (Set.notMem_empty _)

section Lone

variable {resource : Resource} {tags : List Tag} {hkeys : (tags.map Tag.key).Nodup}

theorem eq_of_mem_things {thing : Thing} (h : thing ∈ (loneAccount resource tags hkeys).things) :
    thing = .resource resource := by
  cases thing with
  | resource other => exact congrArg Thing.resource h
  | «alias» aliasName keyId => exact absurd h (Set.notMem_empty (aliasName, keyId))
  | attachment gatewayId vpcId => exact absurd h (Set.notMem_empty (gatewayId, vpcId))

theorem eq_of_tagged {other : Resource} (h : (loneAccount resource tags hkeys).Tagged other) :
    other = resource := by
  by_contra hne
  have htags : (loneAccount resource tags hkeys).tags other = [] := if_neg hne
  rw [Account.Tagged, htags] at h
  exact absurd h List.not_mem_nil

/-- The account with what is there of it. -/
def loneState (resource : Resource) (tags : List Tag) (hkeys : (tags.map Tag.key).Nodup)
    (present : Set Thing) (h : present ⊆ (loneAccount resource tags hkeys).things) :
    AccountState (loneAccount resource tags hkeys) where
  present
  inside _ _ hinside := by cases hinside
  attached gatewayId vpcId hmem := absurd (h hmem) (Set.notMem_empty (gatewayId, vpcId))

end Lone

/-- An account with an owned volume. -/
abbrev volumeAccount : Account :=
  loneAccount (.volume "vol-1") [⟨"Name", "isv-sec04-test-disk"⟩, ⟨"CreatedBy", "isvtest"⟩] (by decide)

/-- A listing with the volume, and no others. -/
def volumeAnswer : (call : SecurityCall) → call.Reply
  | .describeVolumes =>
    { pages := [[⟨"vol-1", [⟨"Name", "isv-sec04-test-disk"⟩, ⟨"CreatedBy", "isvtest"⟩]⟩]] }
  | call => answer [] [] call

theorem volumeAnswer_step (before : AccountState volumeAccount)
    (h : before.present ⊆ volumeAccount.things) (call : SecurityCall) :
    ∃ after, AccountStep volumeAccount before call (volumeAnswer call) after ∧
      after.present ⊆ volumeAccount.things := by
  have hthing {thing : Thing} (hmem : thing ∈ before.present) : thing = .resource (.volume "vol-1") :=
    eq_of_mem_things (h hmem)
  have htruthful : volumeAccount.Truthful call (volumeAnswer call) := by
    cases call <;> simp [Account.Truthful, volumeAnswer, answer, loneAccount, Account.Tagged]
  have hcomplete : volumeAccount.Complete before.present call (volumeAnswer call) := by
    cases call <;> simp [Account.Complete, volumeAnswer, answer] <;> grind
  by_cases hvolume : call = .deleteVolume "vol-1"
  · have hempty : (∅ : Set Thing) ⊆ volumeAccount.things := Set.empty_subset _
    refine ⟨loneState _ _ _ ∅ hempty, ⟨htruthful, hcomplete, ?_, ?_, Set.empty_subset _⟩, hempty⟩
    · intro _ _ _
      exact Set.notMem_empty _
    · intro _ _ _ _ _ _
      exact Set.notMem_empty _
  · have hremoves (thing : Thing) (hmem : thing ∈ call.removes) : thing ∉ before.present := by
      intro hthere
      rw [hthing hthere] at hmem
      cases call <;> grind [SecurityCall.removes]
    exact ⟨before, ⟨htruthful, hcomplete, fun _ ↦ hremoves, fun _ _ _ _ ↦ hremoves, subset_rfl⟩, h⟩

theorem volumeAccount_smooth (exchange : AccountExchange volumeAccount) :
    volumeAccount.Smooth exchange := by
  have howned {resource : Resource} (h : volumeAccount.Owned resource) :
      resource = .volume "vol-1" := eq_of_tagged h.2
  constructor
  · cases exchange with
    | mk before call reply after =>
      cases call with
      | describeLoadBalancers | describeTargetGroups =>
        intro _ _ _ _ _ _ h
        cases howned h
      | describeVpcs | listBuckets =>
        intro _ _ _ _ h
        cases howned h
      | listUserTags =>
        intro _ _ _ h
        cases howned h
      | _ => trivial
  · intro resource hresource handle hhandle
    rw [howned hresource] at hhandle
    exact absurd hhandle (Set.notMem_empty _)

/-- The volume is found and deleted. -/
theorem securityTeardown_leavesNothingOwned_volume :
    ∃ run : AccountRun volumeAccount, run.report.success = true ∧
      .resource (.volume "vol-1") ∈ run.before.present ∧
      .resource (.volume "vol-1") ∉ run.after.present := by
  have hstart : (loneState _ _ _ volumeAccount.things subset_rfl).present ⊆ volumeAccount.things :=
    subset_rfl
  obtain ⟨trace, after, hexecution, _, _⟩ := (main false).exists_execution volumeAnswer_step hstart
  have hreport : ((main false).play volumeAnswer).2 = .ok { success := true } := rfl
  rw [hreport] at hexecution
  let run : AccountRun volumeAccount := ⟨_, after, trace, _, hexecution⟩
  have hname : resourceHasOwnedName (volumeAccount.tags (.volume "vol-1")) := by decide
  have howned : volumeAccount.Owned (.volume "vol-1") :=
    ⟨hname, by simp [Account.Tagged, loneAccount]⟩
  have hfindable (resource : Resource) (hresource : volumeAccount.Owned resource) :
      .resource resource ∈ run.before.present → volumeAccount.Findable run.before.present resource := by
    rw [eq_of_tagged hresource.2]
    exact fun _ ↦ trivial
  have hleft := securityTeardown_leavesNothingOwned run (.start _ rfl) hfindable
    fun exchange _ ↦ volumeAccount_smooth exchange
  exact ⟨run, rfl, rfl, hleft rfl _ howned⟩

/-- An account with an owned user. -/
abbrev userAccount : Account :=
  loneAccount (.user "isv-sa-test-1") [⟨"CreatedBy", "isvtest"⟩] (by decide)

/-- The user is listed, but its tags are not read. -/
def unreadAnswer : (call : SecurityCall) → call.Reply
  | .listUsers => { pages := [["isv-sa-test-1"]] }
  | .listUserTags _ => { error := some (.client "Throttling" "Rate exceeded") }
  | .deleteUser _ => .error (.client "AccessDenied" "")
  | call => answer [] [] call

theorem unreadAnswer_step (before : AccountState userAccount)
    (h : before.present = userAccount.things) (call : SecurityCall) :
    ∃ after, AccountStep userAccount before call (unreadAnswer call) after ∧
      after.present = userAccount.things := by
  have hthing {thing : Thing} (hmem : thing ∈ before.present) : thing = .resource (.user "isv-sa-test-1") :=
    eq_of_mem_things (h ▸ hmem)
  have htruthful : userAccount.Truthful call (unreadAnswer call) := by
    cases call <;> simp [Account.Truthful, unreadAnswer, answer]
  have hcomplete : userAccount.Complete before.present call (unreadAnswer call) := by
    cases call <;> simp [Account.Complete, unreadAnswer, answer] <;> grind
  have hremoves (hdelete : ∀ userName, call ≠ .deleteUser userName) (thing : Thing)
      (hmem : thing ∈ call.removes) : thing ∉ before.present := by
    intro hthere
    rw [hthing hthere] at hmem
    cases call <;> grind [SecurityCall.removes]
  refine ⟨before, ⟨htruthful, hcomplete, ?_, ?_, subset_rfl⟩, h⟩
  · intro haccepted
    apply hremoves
    intro userName heq
    subst heq
    simp [SecurityCall.deletion, unreadAnswer] at haccepted
  · intro code text hgone hcode
    apply hremoves
    intro userName heq
    subst heq
    have hdenied : code = "AccessDenied" := by
      simp only [SecurityCall.deletion, unreadAnswer, Option.some.injEq, Except.error.injEq,
        AwsError.client.injEq] at hgone
      exact hgone.1.symm
    have hunknown : "AccessDenied" ∉ alreadyGoneCodes := by decide
    exact hunknown (hdenied ▸ hcode)

/-- A user whose tags could not be read is passed over, and the run reports success. -/
theorem unread_user_left :
    ¬ ∀ run : AccountRun userAccount, Reached userAccount run.before → run.LeavesNothingOwned := by
  intro hall
  have hstart : (loneState _ _ _ userAccount.things subset_rfl).present = userAccount.things := rfl
  obtain ⟨trace, after, hexecution, hafter, _⟩ := (main false).exists_execution unreadAnswer_step hstart
  have hreport : ((main false).play unreadAnswer).2 =
      .ok { success := true, users := { skippedUnowned := 1 } } := rfl
  rw [hreport] at hexecution
  let run : AccountRun userAccount := ⟨_, after, trace, _, hexecution⟩
  have hname : startsWithAny ownedUserPrefixes "isv-sa-test-1" := by decide
  have howned : userAccount.Owned (.user "isv-sa-test-1") :=
    ⟨hname, by simp [Account.Tagged, loneAccount]⟩
  have hthere : .resource (.user "isv-sa-test-1") ∈ run.after.present := by
    rw [hafter]
    rfl
  exact hall run (.start _ rfl) rfl _ howned hthere

end IsvValidation.Security
