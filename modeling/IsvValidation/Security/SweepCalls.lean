import IsvValidation.Library.Execution
import IsvValidation.Security.Teardown

/-!
# What the sweeps call

The rules say which calls a part of the teardown makes along honest replies: for each sweep, which
deletions have to be allowed after what it was told. Whatever destroys nothing is allowed.
-/

namespace IsvValidation.Security

open Host Library
open Aws (AwsError transientAwsCodes)

/-- A call which only reads or waits. -/
def SecurityCall.Harmless : SecurityCall → Prop
  | deleteLoadBalancer _ | deleteTargetGroup _ | terminateInstances _ | deleteVolume _
  | disassociateRouteTable _ | deleteRouteTable _ | deleteSecurityGroup _ | deleteSubnet _
  | detachInternetGateway _ _ | deleteInternetGateway _ | deleteVpc _ | deleteServerCertificate _
  | deleteAlias _ | scheduleKeyDeletion _ | deleteObjects _ _ | deleteBucket _ | deleteAccessKey _ _
  | deleteUserPolicy _ _ | deleteUser _ => False
  | _ => True

variable {honest : (call : SecurityCall) → call.Reply → Prop} {allowed : SecurityCall → Prop}

/-! ## Parts of a sweep -/

theorem within_onReply {α β : Type} {reply : Except AwsError α} {next : α → TeardownProgram β}
    {handle : String → String → TeardownProgram β} {returns : β → Prop}
    (hnext : ∀ response, reply = .ok response → (next response).Within honest allowed returns)
    (hhandle : ∀ code text, (handle code text).Within honest allowed returns) :
    (onReply reply next handle).Within honest allowed returns := by
  unfold onReply
  split
  · exact hnext _ rfl
  · exact hhandle _ _
  · exact .raise _

theorem within_call {α : Type} {returns : α → Prop} (call : SecurityCall) (hcall : allowed call)
    {next : call.Reply → TeardownProgram α}
    (hnext : ∀ reply, honest call reply → (next reply).Within honest allowed returns) :
    (Program.call call next).Within honest allowed returns := .call hcall hnext

theorem within_collect {α : Type} {sweep : α → TeardownProgram (List String)} {items : List α}
    (h : ∀ item ∈ items, (sweep item).Within honest allowed fun _ ↦ True) :
    (collect sweep items).Within honest allowed fun _ ↦ True := by
  induction items with
  | nil => trivial
  | cons item rest ih =>
    have ⟨hitem, hrest⟩ := List.forall_mem_cons.mp h
    exact hitem.bind fun _ _ ↦ (ih hrest).bind fun _ _ ↦ trivial

theorem within_sweepPages {α : Type} {listing : Listing α}
    {sweep : α → TeardownProgram (List String)}
    (h : ∀ item ∈ listing.pages.flatten, (sweep item).Within honest allowed fun _ ↦ True) :
    (sweepPages listing sweep).Within honest allowed fun _ ↦ True := by
  apply (within_collect h).bind
  intro errors _
  split <;> trivial

variable {call : TeardownProgram Unit}

theorem within_deleteWithRetry {codes : List String} {attempts : ℕ}
    (h : call.Within honest allowed fun _ ↦ True) :
    (deleteWithRetry call codes attempts).Within honest allowed fun _ ↦ True := by
  induction attempts with
  | zero => trivial
  | succ attempts ih =>
    apply h.attempt.bind
    intro outcome _
    split
    · trivial
    · split
      · trivial
      · split
        · exact ih
        · trivial
    · trivial
    · split
      · exact ih
      · trivial

theorem within_deleteOr {error : String} (h : call.Within honest allowed fun _ ↦ True) :
    (deleteOr error call).Within honest allowed fun _ ↦ True :=
  (within_deleteWithRetry h).bind fun _ _ ↦ trivial

theorem within_releaseOr {error : String} {codes : List String}
    (h : call.Within honest allowed fun _ ↦ True) :
    (releaseOr error call codes).Within honest allowed fun _ ↦ True :=
  (within_deleteWithRetry h).bind fun _ _ ↦ trivial

theorem within_awaitOr {message : String} (h : call.Within honest allowed fun _ ↦ True) :
    (awaitOr message call).Within honest allowed fun _ ↦ True := by
  apply h.attempt.bind
  intro outcome _
  split <;> trivial

theorem within_callOr {message : String} (h : call.Within honest allowed fun _ ↦ True) :
    (callOr message call).Within honest allowed fun _ ↦ True := by
  apply h.attempt.bind
  intro outcome _
  split <;> trivial

theorem within_sweepResources {sweeps : List (TeardownProgram (List String))}
    (h : ∀ sweep ∈ sweeps, sweep.Within honest allowed fun _ ↦ True) :
    (sweepResources sweeps).Within honest allowed fun _ ↦ True := by
  induction sweeps with
  | nil => trivial
  | cons sweep rest ih =>
    have ⟨hsweep, hrest⟩ := List.forall_mem_cons.mp h
    apply hsweep.attempt.bind
    intro outcome _
    split
    · exact (ih hrest).bind fun _ _ ↦ trivial
    · trivial
    · trivial

theorem within_createClients {services : List String}
    (h : ∀ service ∈ services, allowed (.client service)) :
    (createClients services).Within honest allowed fun _ ↦ True := by
  induction services with
  | nil => trivial
  | cons service rest ih =>
    have ⟨hservice, hrest⟩ := List.forall_mem_cons.mp h
    apply within_call (.client service) hservice
    intro reply _
    split
    · exact ih hrest
    · trivial

/-- One call whose reply is its result. -/
theorem within_single {α : Type} {op : SecurityCall} (hop : allowed op)
    {next : op.Reply → TeardownProgram α}
    (hnext : ∀ reply, ∃ result, next reply = .ofExcept result) :
    (Program.call op next).Within honest allowed fun _ ↦ True := by
  apply within_call op hop
  intro reply _
  have ⟨result, heq⟩ := hnext reply
  rw [heq]
  exact .ofExcept fun _ _ ↦ trivial

/-! ## The sweeps -/

section Sweeps

variable (hharmless : ∀ call : SecurityCall, call.Harmless → allowed call)

include hharmless

/-- What is found among load balancers or target groups was described with owned tags. -/
theorem within_ownedArns (good : String → Prop)
    (hgood : ∀ batch descriptions, honest (.describeTags batch) (.ok descriptions) →
      ∀ description ∈ descriptions, hasOwnedTags description.2 → good description.1)
    (what : String) (batches : List (List String)) :
    (ownedArns what batches).Within honest allowed fun found ↦ ∀ arn ∈ found.2, good arn := by
  induction batches with
  | nil => exact .done (by simp)
  | cons batch rest ih =>
    have hbatch : (ownedArnsOf what batch).Within honest allowed
        fun found ↦ ∀ arn ∈ found.2, good arn := by
      apply within_call (.describeTags batch) (hharmless _ trivial)
      intro reply hreply
      apply within_onReply
      · intro descriptions heq
        rw [heq] at hreply
        apply Program.Within.done
        intro arn harn
        have ⟨description, hmem, hfst⟩ := List.mem_map.mp harn
        have ⟨hlisted, howned⟩ := List.mem_filter.mp hmem
        exact hfst ▸ hgood batch descriptions hreply description hlisted howned
      · intro code text
        exact .done (by simp)
    apply hbatch.bind
    intro found hfound
    apply ih.bind
    intro others hothers
    apply Program.Within.done
    intro arn harn
    exact (List.mem_append.mp harn).elim (hfound arn) (hothers arn)

theorem within_sweepArns (good : String → Prop)
    (hgood : ∀ batch descriptions, honest (.describeTags batch) (.ok descriptions) →
      ∀ description ∈ descriptions, hasOwnedTags description.2 → good description.1)
    {what plural : String} {listing : Listing String} {sweep : String → TeardownProgram (List String)}
    (h : ∀ arn, good arn → (sweep arn).Within honest allowed fun _ ↦ True) :
    (sweepArns what plural listing sweep).Within honest allowed fun _ ↦ True := by
  unfold sweepArns
  split
  · apply (within_ownedArns hharmless good hgood _ _).bind
    intro found hfound
    exact (within_collect fun arn harn ↦ h arn (hfound arn harn)).bind fun _ _ ↦ trivial
  · trivial
  · trivial

theorem within_loadBalancers
    (hdelete : ∀ batch descriptions, honest (.describeTags batch) (.ok descriptions) →
      ∀ description ∈ descriptions, hasOwnedTags description.2 →
      allowed (.deleteLoadBalancer description.1)) :
    cleanupOwnedLoadBalancers.Within honest allowed fun _ ↦ True := by
  apply within_call .describeLoadBalancers (hharmless _ trivial)
  intro listing _
  apply within_sweepArns hharmless (fun arn ↦ allowed (.deleteLoadBalancer arn)) hdelete
  intro arn hallowed
  have hgone : (deleteLoadBalancer.gone arn).Within honest allowed fun _ ↦ True :=
    within_awaitOr (within_single (hharmless (.waitLoadBalancersDeleted arn) trivial)
      fun reply ↦ ⟨reply, rfl⟩)
  apply within_call (.deleteLoadBalancer arn) hallowed
  intro reply _
  apply within_onReply fun _ _ ↦ hgone
  intro code text
  split
  · exact hgone
  · trivial

theorem within_targetGroups
    (hdelete : ∀ batch descriptions, honest (.describeTags batch) (.ok descriptions) →
      ∀ description ∈ descriptions, hasOwnedTags description.2 →
      allowed (.deleteTargetGroup description.1)) :
    cleanupOwnedTargetGroups.Within honest allowed fun _ ↦ True := by
  apply within_call .describeTargetGroups (hharmless _ trivial)
  intro listing _
  apply within_sweepArns hharmless (fun arn ↦ allowed (.deleteTargetGroup arn)) hdelete
  intro arn hallowed
  exact within_deleteOr (within_single hallowed fun reply ↦ ⟨reply, rfl⟩)

theorem within_instances
    (hterminate : ∀ listing, honest .describeInstances listing → ∀ instanceIds : List String,
      (∀ instanceId ∈ instanceIds, ∃ item ∈ listing.pages.flatten, item.instanceId = instanceId ∧
        resourceHasOwnedName item.tags) → allowed (.terminateInstances instanceIds)) :
    cleanupOwnedInstances.Within honest allowed fun _ ↦ True := by
  apply within_call .describeInstances (hharmless _ trivial)
  intro listing hlisting
  split
  · trivial
  · dsimp only
    split
    · trivial
    · apply within_call (.terminateInstances _)
      · apply hterminate listing hlisting
        intro instanceId hmem
        have ⟨item, hitem, hid⟩ := List.mem_map.mp hmem
        have ⟨hlisted, hselected⟩ := List.mem_filter.mp hitem
        exact ⟨item, hlisted, hid, (Bool.and_eq_true_iff.mp hselected).2⟩
      · intro reply _
        apply within_onReply
        · intro _ _
          exact within_awaitOr (within_single (hharmless (.waitInstanceTerminated _) trivial)
            fun reply ↦ ⟨reply, rfl⟩)
        · intro _ _
          trivial

theorem within_volumes
    (hdelete : ∀ listing, honest .describeVolumes listing → ∀ volume ∈ listing.pages.flatten,
      resourceHasOwnedName volume.tags → allowed (.deleteVolume volume.id)) :
    cleanupOwnedVolumes.Within honest allowed fun _ ↦ True := by
  apply within_call .describeVolumes (hharmless _ trivial)
  intro listing hlisting
  apply within_sweepPages
  intro volume hmem
  split
  next hname =>
    exact within_deleteOr (within_single (hdelete listing hlisting volume hmem hname)
      fun reply ↦ ⟨reply, rfl⟩)
  · trivial

omit hharmless in
theorem within_routeTable {table : RouteTable} (hdelete : allowed (.deleteRouteTable table.routeTableId))
    (hdisassociate : ∀ association ∈ table.associations,
      allowed (.disassociateRouteTable association.associationId)) :
    (cleanupRouteTable table).Within honest allowed fun _ ↦ True := by
  unfold cleanupRouteTable
  split
  · trivial
  · apply Program.Within.bind
    · apply within_collect
      intro association hmem
      unfold disassociate
      split
      · trivial
      · apply within_call (.disassociateRouteTable _) (hdisassociate association hmem)
        intro reply _
        exact within_onReply (fun _ _ ↦ trivial) fun _ _ ↦ trivial
    · intro errors _
      exact (within_deleteOr (within_single hdelete fun reply ↦ ⟨reply, rfl⟩)).bind
        fun _ _ ↦ trivial

omit hharmless in
theorem within_securityGroup {group : SecurityGroup}
    (hdelete : allowed (.deleteSecurityGroup group.groupId)) :
    (cleanupSecurityGroup group).Within honest allowed fun _ ↦ True := by
  unfold cleanupSecurityGroup
  split
  · trivial
  · exact within_deleteOr (within_single hdelete fun reply ↦ ⟨reply, rfl⟩)

omit hharmless in
theorem within_gateway {vpcId gatewayId : String}
    (hdetach : allowed (.detachInternetGateway gatewayId vpcId))
    (hdelete : allowed (.deleteInternetGateway gatewayId)) :
    (cleanupInternetGateway vpcId gatewayId).Within honest allowed fun _ ↦ True := by
  apply Program.Within.bind
  · apply within_releaseOr
    apply within_call (.detachInternetGateway gatewayId vpcId) hdetach
    intro reply _
    apply within_onReply fun _ _ ↦ .done trivial
    intro code text
    split <;> trivial
  · intro errors _
    exact (within_releaseOr (within_single hdelete fun reply ↦ ⟨reply, rfl⟩)).bind
      fun _ _ ↦ trivial

theorem within_certificates
    (hdelete : ∀ listing, honest .listServerCertificates listing → ∀ name ∈ listing.pages.flatten,
      Text.startsWith name sec13Prefix → allowed (.deleteServerCertificate name)) :
    cleanupOwnedIamServerCerts.Within honest allowed fun _ ↦ True := by
  apply within_call .listServerCertificates (hharmless _ trivial)
  intro listing hlisting
  apply Program.Within.bind
  · apply within_collect
    intro name hmem
    unfold cleanupOwnedIamServerCerts.sweep
    split
    next hname =>
      exact within_releaseOr (within_single (hdelete listing hlisting name hmem hname)
        fun reply ↦ ⟨reply, rfl⟩)
    · trivial
  · intro _ _
    split <;> trivial

omit hharmless in
theorem within_alias {item : KeyAlias} (hdelete : allowed (.deleteAlias item.aliasName))
    (hschedule : allowed (.scheduleKeyDeletion item.targetKeyId)) :
    (cleanupAlias item).Within honest allowed fun _ ↦ True := by
  have hkey (errors : List String) :
      (cleanupAlias.schedule item errors).Within honest allowed fun _ ↦ True := by
    unfold cleanupAlias.schedule
    split
    · trivial
    · apply within_call (.scheduleKeyDeletion item.targetKeyId) hschedule
      intro reply _
      exact within_onReply (fun _ _ ↦ .done trivial) fun _ _ ↦ .done trivial
  apply within_call (.deleteAlias item.aliasName) hdelete
  intro reply _
  exact within_onReply (fun _ _ ↦ hkey []) fun _ _ ↦ hkey _

theorem within_buckets
    (hdestroy : ∀ bucket tags, startsWithAny ownedResourcePrefixes bucket →
      honest (.getBucketTagging bucket) (.ok tags) → createdByIsvtest tags →
      (∀ objects, allowed (.deleteObjects bucket objects)) ∧ allowed (.deleteBucket bucket)) :
    cleanupOwnedBuckets.Within honest allowed fun _ ↦ True := by
  have hempty (bucket : String) (hobjects : ∀ objects, allowed (.deleteObjects bucket objects))
      (error : Option AwsError) (pages : List (List ObjectVersion)) :
      (emptyBucket bucket error pages).Within honest allowed fun _ ↦ True := by
    induction pages with
    | nil =>
      unfold emptyBucket
      split
      · trivial
      · exact within_onReply (fun _ _ ↦ trivial) fun _ _ ↦ trivial
    | cons objects rest ih =>
      cases objects with
      | nil => exact ih
      | cons object objects =>
        apply within_call (.deleteObjects bucket (object :: objects)) (hobjects _)
        intro reply _
        exact within_onReply (fun _ _ ↦ ih) fun _ _ ↦ trivial
  apply within_call .listBuckets (hharmless _ trivial)
  intro reply _
  apply within_onReply ?_ fun _ _ ↦ .done trivial
  intro buckets _
  apply within_collect
  intro bucket _
  unfold sweepBucket
  split
  next hname =>
    apply within_call (.getBucketTagging bucket) (hharmless _ trivial)
    intro reply hreply
    apply within_onReply ?_ fun _ _ ↦ .done trivial
    intro tags heq
    split
    next hcreated =>
      rw [heq] at hreply
      have ⟨hobjects, hbucket⟩ := hdestroy bucket tags hname hreply hcreated
      apply within_call (.listObjectVersions bucket) (hharmless _ trivial)
      intro listing _
      apply (hempty bucket hobjects _ _).bind
      intro _ _
      exact (within_deleteOr (within_single hbucket fun reply ↦ ⟨reply, rfl⟩)).bind
        fun _ _ ↦ trivial
    · trivial
  · trivial

theorem within_user {userName : String}
    (hdestroy : (∀ accessKeyId, allowed (.deleteAccessKey userName accessKeyId)) ∧
      (∀ policyName, allowed (.deleteUserPolicy userName policyName)) ∧
      allowed (.deleteUser userName)) :
    (cleanupOwnedUser userName).Within honest allowed fun _ ↦ True := by
  have ⟨hkeys, hpolicies, huser⟩ := hdestroy
  have hlisted {reply : Except AwsError (Page String)} {message : String}
      {sweep : String → TeardownProgram (List String)}
      (h : ∀ item, (sweep item).Within honest allowed fun _ ↦ True) :
      (cleanupOwnedUser.listed reply message sweep).Within honest allowed fun _ ↦ True :=
    within_onReply (fun _ _ ↦ within_collect fun item _ ↦ h item) fun _ _ ↦ trivial
  apply within_call (.listAccessKeys userName) (hharmless _ trivial)
  intro keys _
  apply Program.Within.bind
  · apply hlisted
    intro accessKeyId
    exact within_callOr (within_single (hkeys accessKeyId) fun reply ↦ ⟨reply, rfl⟩)
  intro _ _
  apply within_call (.listUserPolicies userName) (hharmless _ trivial)
  intro policies _
  apply Program.Within.bind
  · apply hlisted
    intro policyName
    exact within_callOr (within_single (hpolicies policyName) fun reply ↦ ⟨reply, rfl⟩)
  intro _ _
  exact (within_callOr (within_single huser fun reply ↦ ⟨reply, rfl⟩)).bind fun _ _ ↦ trivial

/-- A user which is found to be tagged was listed with the tag. -/
theorem within_userHasIsvtestTag {userName : String} {tagged : Prop}
    (htagged : ∀ listing, honest (.listUserTags userName) listing →
      ⟨"CreatedBy", "isvtest"⟩ ∈ listing.pages.flatten → tagged) :
    (userHasIsvtestTag userName).Within honest allowed fun owned ↦ owned = true → tagged := by
  apply within_call (.listUserTags userName) (hharmless _ trivial)
  intro listing hlisting
  split
  next hfound =>
    apply Program.Within.done
    intro _
    have ⟨tag, hmem, htag⟩ := List.any_eq_true.mp hfound
    have ⟨hkey, hvalue⟩ := Bool.and_eq_true_iff.mp htag
    have heq : tag = ⟨"CreatedBy", "isvtest"⟩ := by
      cases tag
      simp_all
    exact htagged listing hlisting (heq ▸ hmem)
  · split
    · exact .done (by simp)
    · exact .done (by simp)
    · trivial

theorem within_users
    (hdestroy : ∀ userName listing, startsWithAny ownedUserPrefixes userName →
      honest (.listUserTags userName) listing →
      ⟨"CreatedBy", "isvtest"⟩ ∈ listing.pages.flatten →
      (∀ accessKeyId, allowed (.deleteAccessKey userName accessKeyId)) ∧
      (∀ policyName, allowed (.deleteUserPolicy userName policyName)) ∧
      allowed (.deleteUser userName)) :
    sweepIamUsers.Within honest allowed fun _ ↦ True := by
  have hsweep (users : List String) (sweep : UserSweep) :
      (sweepUsers sweep users).Within honest allowed fun _ ↦ True := by
    induction users generalizing sweep with
    | nil => trivial
    | cons userName rest ih =>
      have huser : (sweepUser sweep userName).Within honest allowed fun _ ↦ True := by
        unfold sweepUser
        split
        next hname =>
          apply (within_userHasIsvtestTag hharmless fun listing ↦ hdestroy userName listing hname).bind
          intro owned hdestroy
          split
          next hyes => exact (within_user hharmless (hdestroy hyes)).bind fun _ _ ↦ trivial
          · trivial
        · trivial
      exact huser.bind fun sweep _ ↦ ih sweep
  apply within_call .listUsers (hharmless _ trivial)
  intro listing _
  apply (hsweep _ _).bind
  intro _ _
  split <;> trivial

end Sweeps

end IsvValidation.Security
