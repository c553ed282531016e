import IsvValidation.Security.SweepCalls

/-!
# What the teardown owns

An account, the replies which are true of it, and the calls which destroy only what the security tests
own: what has an owned name and the tag, and what such a VPC, user or bucket contains. The sweeps over
certificates and keys look at names alone.
-/

namespace IsvValidation.Security

open Host Library
open Aws (AwsError alreadyGoneCodes transientAwsCodes)

/-! ## Accounts -/

/-- What is swept. Load balancers and target groups are named by an ARN, the others by an id or name. -/
inductive Resource where
  | elb (arn : String)
  | compute (instanceId : String)
  | volume (volumeId : String)
  | vpc (vpcId : String)
  | routeTable (routeTableId : String)
  | securityGroup (groupId : String)
  | subnet (subnetId : String)
  | gateway (gatewayId : String)
  | certificate (name : String)
  | key (keyId : String)
  | bucket (name : String)
  | user (name : String)
  deriving DecidableEq

/-- An account at the beginning. Within the tags of a resource a key stands once, and an alias points at
one key. -/
structure Account where
  resources : Set Resource
  tags : Resource → List Tag
  nodup_keys : ∀ resource, ((tags resource).map Tag.key).Nodup
  isLoadBalancer : String → Bool
  vpcOf : Resource → Option String
  associationOf : String → Option String
  attached : Set (String × String)
  aliases : Set (String × String)
  alias_unique : ∀ aliasName keyId other, (aliasName, keyId) ∈ aliases → (aliasName, other) ∈ aliases →
    keyId = other

namespace Account

variable (account : Account)

def Tagged (resource : Resource) : Prop := ⟨"CreatedBy", "isvtest"⟩ ∈ account.tags resource

/-- The name of a resource, or an alias of a key, has an owned prefix. -/
def Named : Resource → Prop
  | .user name => startsWithAny ownedUserPrefixes name
  | .bucket name => startsWithAny ownedResourcePrefixes name
  | .certificate name => Text.startsWith name sec13Prefix
  | .key keyId => ∃ aliasName, (aliasName, keyId) ∈ account.aliases ∧
      Text.startsWith aliasName sec11KmsAliasPrefix
  | resource => resourceHasOwnedName (account.tags resource)

def Owned (resource : Resource) : Prop := account.Named resource ∧ account.Tagged resource

/-- Owned, or in an owned VPC. -/
def OwnedWithVpc (resource : Resource) : Prop :=
  account.Owned resource ∨ ∃ vpcId, account.vpcOf resource = some vpcId ∧ account.Owned (.vpc vpcId)

/-- A reply says nothing of the account which is not so. It may leave anything out. -/
def Truthful : (call : SecurityCall) → call.Reply → Prop
  | .describeTags _, reply => ∀ descriptions, reply = .ok descriptions →
      ∀ description ∈ descriptions, description.2 = account.tags (.elb description.1)
  | .describeInstances, listing => ∀ item ∈ listing.pages.flatten,
      item.tags = account.tags (.compute item.instanceId) ∧ account.Tagged (.compute item.instanceId)
  | .describeVolumes, listing => ∀ item ∈ listing.pages.flatten,
      item.tags = account.tags (.volume item.id) ∧ account.Tagged (.volume item.id)
  | .describeVpcs, reply => ∀ page, reply = .ok page → ∀ item ∈ page.items,
      item.tags = account.tags (.vpc item.id) ∧ account.Tagged (.vpc item.id)
  | .describeRouteTables vpcId, reply => ∀ page, reply = .ok page → ∀ table ∈ page.items,
      account.vpcOf (.routeTable table.routeTableId) = some vpcId ∧
        ∀ association ∈ table.associations,
          account.associationOf association.associationId = some table.routeTableId
  | .describeSecurityGroups vpcId, reply => ∀ page, reply = .ok page → ∀ group ∈ page.items,
      account.vpcOf (.securityGroup group.groupId) = some vpcId
  | .describeSubnets vpcId, reply => ∀ page, reply = .ok page → ∀ subnetId ∈ page.items,
      account.vpcOf (.subnet subnetId) = some vpcId
  | .describeInternetGateways vpcId, reply => ∀ page, reply = .ok page → ∀ gatewayId ∈ page.items,
      (gatewayId, vpcId) ∈ account.attached
  | .listServerCertificates, listing => ∀ name ∈ listing.pages.flatten,
      .certificate name ∈ account.resources
  | .listAliases, listing => ∀ item ∈ listing.pages.flatten,
      (item.aliasName, item.targetKeyId) ∈ account.aliases
  | .getBucketTagging bucket, reply => ∀ tags, reply = .ok tags → tags = account.tags (.bucket bucket)
  | .listUserTags userName, listing => ∀ tag ∈ listing.pages.flatten,
      tag ∈ account.tags (.user userName)
  | _, _ => True

/-- The call destroys nothing, or only what is owned or what such a VPC, user or bucket contains. -/
def Permitted : SecurityCall → Prop
  | .deleteLoadBalancer arn | .deleteTargetGroup arn => account.Owned (.elb arn)
  | .terminateInstances instanceIds =>
      ∀ instanceId ∈ instanceIds, account.Owned (.compute instanceId)
  | .deleteVolume volumeId => account.Owned (.volume volumeId)
  | .disassociateRouteTable associationId => ∃ routeTableId,
      account.associationOf associationId = some routeTableId ∧
        account.OwnedWithVpc (.routeTable routeTableId)
  | .deleteRouteTable routeTableId => account.OwnedWithVpc (.routeTable routeTableId)
  | .deleteSecurityGroup groupId => account.OwnedWithVpc (.securityGroup groupId)
  | .deleteSubnet subnetId => account.OwnedWithVpc (.subnet subnetId)
  | .detachInternetGateway gatewayId vpcId =>
      (gatewayId, vpcId) ∈ account.attached ∧ account.Owned (.vpc vpcId)
  | .deleteInternetGateway gatewayId =>
      ∃ vpcId, (gatewayId, vpcId) ∈ account.attached ∧ account.Owned (.vpc vpcId)
  | .deleteVpc vpcId => account.Owned (.vpc vpcId)
  | .deleteServerCertificate name => account.Owned (.certificate name)
  | .deleteAlias aliasName => ∃ keyId, (aliasName, keyId) ∈ account.aliases ∧
      Text.startsWith aliasName sec11KmsAliasPrefix ∧ account.Tagged (.key keyId)
  | .scheduleKeyDeletion keyId => account.Owned (.key keyId)
  | .deleteObjects bucket _ | .deleteBucket bucket => account.Owned (.bucket bucket)
  | .deleteAccessKey userName _ | .deleteUserPolicy userName _ | .deleteUser userName =>
      account.Owned (.user userName)
  | _ => True

end Account

/-! ## The sweeps -/

/-- All calls of a program are permitted along truthful replies. -/
abbrev Keeps (account : Account) {α : Type} (returns : α → Prop) (program : TeardownProgram α) :
    Prop := program.Within account.Truthful account.Permitted returns

section Sweeps

variable {account : Account}

/-- The value of a tag is one which the resource carries. -/
theorem mem_of_tagValue {tags : List Tag} {key value : String} (h : tagValue tags key = some value) :
    ⟨key, value⟩ ∈ tags := by
  have hmem := OrderedMap.mem_ofList h
  have ⟨tag, htag, heq⟩ := List.mem_map.mp hmem
  cases heq
  exact htag

theorem owned_of_hasOwnedTags {arn : String} (h : hasOwnedTags (account.tags (.elb arn))) :
    account.Owned (.elb arn) := by
  have ⟨hcreated, hname⟩ := Bool.and_eq_true_iff.mp h
  have htagged : account.Tagged (.elb arn) := mem_of_tagValue (of_decide_eq_true hcreated)
  refine ⟨?_, htagged⟩
  cases hvalue : tagValue (account.tags (.elb arn)) "Name" with
  | none =>
    rw [hvalue] at hname
    exact absurd hname (by decide)
  | some name =>
    rw [hvalue] at hname
    apply List.any_eq_true.mpr
    exact ⟨⟨"Name", name⟩, mem_of_tagValue hvalue, by simpa using hname⟩

theorem permitted_of_harmless {call : SecurityCall} (h : call.Harmless) : account.Permitted call := by
  cases call <;> trivial

/-- What is described with owned tags is owned. -/
theorem owned_of_described {batch : List String} {descriptions : List (String × List Tag)}
    (htrue : account.Truthful (.describeTags batch) (.ok descriptions))
    {description : String × List Tag} (hmem : description ∈ descriptions)
    (htags : hasOwnedTags description.2) : account.Owned (.elb description.1) := by
  rw [htrue descriptions rfl description hmem] at htags
  exact owned_of_hasOwnedTags htags

theorem keeps_loadBalancers : Keeps account (fun _ ↦ True) cleanupOwnedLoadBalancers :=
  within_loadBalancers (fun _ ↦ permitted_of_harmless)
    fun _ _ htrue _ hmem htags ↦ owned_of_described htrue hmem htags

theorem keeps_targetGroups : Keeps account (fun _ ↦ True) cleanupOwnedTargetGroups :=
  within_targetGroups (fun _ ↦ permitted_of_harmless)
    fun _ _ htrue _ hmem htags ↦ owned_of_described htrue hmem htags

theorem keeps_instances : Keeps account (fun _ ↦ True) cleanupOwnedInstances := by
  apply within_instances fun _ ↦ permitted_of_harmless
  intro listing htrue instanceIds hlisted instanceId hmem
  have ⟨item, hitem, hid, hname⟩ := hlisted instanceId hmem
  have ⟨htags, htagged⟩ := htrue item hitem
  rw [htags, hid] at hname
  exact ⟨hname, hid ▸ htagged⟩

theorem keeps_volumes : Keeps account (fun _ ↦ True) cleanupOwnedVolumes := by
  apply within_volumes fun _ ↦ permitted_of_harmless
  intro listing htrue volume hmem hname
  have ⟨htags, htagged⟩ := htrue volume hmem
  rw [htags] at hname
  exact ⟨hname, htagged⟩

/-- What is listed for an owned VPC is contained in it or attached to it. -/
theorem keeps_vpc {vpcId : String} (howned : account.Owned (.vpc vpcId)) :
    Keeps account (fun _ ↦ True) (cleanupVpc vpcId) := by
  have hinside {resource : Resource} (hvpc : account.vpcOf resource = some vpcId) :
      account.OwnedWithVpc resource := .inr ⟨vpcId, hvpc, howned⟩
  apply Program.Within.bind
  · exact within_call (.describeRouteTables vpcId) trivial fun reply htrue ↦ .ofExcept htrue
  intro tables htables
  apply Program.Within.bind
  · apply within_collect
    intro table hmem
    have ⟨hvpc, hassociations⟩ := htables table hmem
    apply within_routeTable (hinside hvpc)
    intro association hassociation
    exact ⟨table.routeTableId, hassociations association hassociation, hinside hvpc⟩
  intro _ _
  apply Program.Within.bind
  · exact within_call (.describeSecurityGroups vpcId) trivial fun reply htrue ↦ .ofExcept htrue
  intro groups hgroups
  apply Program.Within.bind
  · apply within_collect
    intro group hmem
    exact within_securityGroup (hinside (hgroups group hmem))
  intro _ _
  apply Program.Within.bind
  · exact within_call (.describeSubnets vpcId) trivial fun reply htrue ↦ .ofExcept htrue
  intro subnets hsubnets
  apply Program.Within.bind
  · apply within_collect
    intro subnetId hmem
    exact within_releaseOr (within_single (hinside (hsubnets subnetId hmem))
      fun reply ↦ ⟨reply, rfl⟩)
  intro _ _
  apply Program.Within.bind
  · exact within_call (.describeInternetGateways vpcId) trivial fun reply htrue ↦ .ofExcept htrue
  intro gateways hgateways
  apply Program.Within.bind
  · apply within_collect
    intro gatewayId hmem
    have hattached := hgateways gatewayId hmem
    exact within_gateway ⟨hattached, howned⟩ ⟨vpcId, hattached, howned⟩
  intro _ _
  apply Program.Within.bind
  · exact within_releaseOr (within_single howned fun reply ↦ ⟨reply, rfl⟩)
  intro _ _
  trivial

theorem keeps_vpcs : Keeps account (fun _ ↦ True) cleanupOwnedVpcs := by
  apply Program.Within.bind
  · exact within_call .describeVpcs trivial fun reply htrue ↦ .ofExcept htrue
  intro vpcs hvpcs
  apply within_collect
  intro vpc hmem
  have ⟨htags, htagged⟩ := hvpcs vpc hmem
  split
  next hname =>
    rw [htags] at hname
    exact keeps_vpc ⟨hname, htagged⟩
  · trivial

theorem keeps_buckets : Keeps account (fun _ ↦ True) cleanupOwnedBuckets := by
  apply within_buckets fun _ ↦ permitted_of_harmless
  intro bucket tags hname htrue hcreated
  rw [htrue tags rfl] at hcreated
  have howned : account.Owned (.bucket bucket) :=
    ⟨hname, mem_of_tagValue (of_decide_eq_true hcreated)⟩
  exact ⟨fun _ ↦ howned, howned⟩

theorem keeps_users : Keeps account (fun _ ↦ True) sweepIamUsers := by
  apply within_users fun _ ↦ permitted_of_harmless
  intro userName listing hname htrue hmem
  have howned : account.Owned (.user userName) := ⟨hname, htrue _ hmem⟩
  exact ⟨fun _ ↦ howned, fun _ ↦ howned, howned⟩

end Sweeps

/-! ## The teardown -/

/-- The condition under which names alone say enough: what is found by the name of a certificate, or by
an alias of a key, carries the tag. -/
def Account.NamesSuffice (account : Account) : Prop :=
  (∀ name, .certificate name ∈ account.resources → Text.startsWith name sec13Prefix →
    account.Tagged (.certificate name)) ∧
  ∀ aliasName keyId, (aliasName, keyId) ∈ account.aliases →
    Text.startsWith aliasName sec11KmsAliasPrefix → account.Tagged (.key keyId)

section Teardown

variable {account : Account}

theorem keeps_certs (h : account.NamesSuffice) :
    Keeps account (fun _ ↦ True) cleanupOwnedIamServerCerts := by
  apply within_certificates fun _ ↦ permitted_of_harmless
  intro listing htrue name hmem hname
  exact ⟨hname, h.1 name (htrue name hmem) hname⟩

theorem keeps_kms (h : account.NamesSuffice) : Keeps account (fun _ ↦ True) cleanupOwnedKms := by
  apply within_call .listAliases trivial
  intro listing htrue
  apply within_sweepPages
  intro item hmem
  split
  next hname =>
    have halias := htrue item hmem
    have htagged := h.2 item.aliasName item.targetKeyId halias hname
    exact within_alias ⟨item.targetKeyId, halias, hname, htagged⟩
      ⟨⟨item.aliasName, halias, hname⟩, htagged⟩
  · trivial

/-- Where names suffice, the whole teardown destroys only what it owns. -/
theorem keeps_main (h : account.NamesSuffice) (skipDestroy : Bool) :
    Keeps account (fun _ ↦ True) (main skipDestroy) := by
  have hteardown : Keeps account (fun _ ↦ True) (securityTeardown skipDestroy) := by
    unfold securityTeardown
    split
    · trivial
    · apply (within_createClients fun _ _ ↦ trivial).bind
      intro _ _
      apply Program.Within.bind
      · apply within_sweepResources
        simp only [resourceSweeps, List.forall_mem_cons, List.not_mem_nil, IsEmpty.forall_iff,
          implies_true, and_true]
        exact ⟨keeps_loadBalancers, keeps_targetGroups, keeps_instances, keeps_volumes, keeps_vpcs,
          keeps_certs h, keeps_kms h, keeps_buckets⟩
      · intro resourceErrors _
        apply keeps_users.attempt.bind
        intro outcome _
        split <;> trivial
  apply hteardown.attempt.bind
  intro outcome _
  split <;> trivial

/-- A teardown of an account: all replies are truthful. -/
abbrev TeardownRun (account : Account) (skipDestroy : Bool)
    (trace : List (Exchange Unit SecurityCall.Reply)) (outcome : Except AwsError TeardownReport) :
    Prop := Execution (fun _ call reply _ ↦ account.Truthful call reply) () (main skipDestroy) trace ()
  outcome

/-- Every call of every teardown destroys only what is owned. -/
def Account.OnlyOwnedDestroyed (account : Account) : Prop :=
  ∀ skipDestroy trace outcome, TeardownRun account skipDestroy trace outcome →
    ∀ exchange ∈ trace, account.Permitted exchange.op

/-- Empty listings, apart from these certificates and aliases, and deletions which succeed. -/
def answer (certificates : List String) (aliases : List KeyAlias) :
    (call : SecurityCall) → call.Reply
  | .describeLoadBalancers | .describeTargetGroups | .listUsers => ({} : Listing String)
  | .describeInstances => ({} : Listing Instance)
  | .describeVolumes => ({} : Listing TaggedItem)
  | .listObjectVersions _ => ({} : Listing ObjectVersion)
  | .listUserTags _ => ({} : Listing Tag)
  | .listServerCertificates => { pages := [certificates] }
  | .listAliases => { pages := [aliases] }
  | .describeTags _ => .ok []
  | .describeVpcs => .ok {}
  | .describeRouteTables _ => .ok {}
  | .describeSecurityGroups _ => .ok {}
  | .describeSubnets _ | .describeInternetGateways _ | .listBuckets => .ok {}
  | .listAccessKeys _ | .listUserPolicies _ => .ok {}
  | .getBucketTagging _ => .error (.client "AccessDenied" "")
  | .client _ | .deleteLoadBalancer _ | .waitLoadBalancersDeleted _ | .deleteTargetGroup _
  | .terminateInstances _ | .waitInstanceTerminated _ | .deleteVolume _
  | .disassociateRouteTable _ | .deleteRouteTable _ | .deleteSecurityGroup _ | .deleteSubnet _
  | .detachInternetGateway _ _ | .deleteInternetGateway _ | .deleteVpc _
  | .deleteServerCertificate _ | .deleteAlias _ | .scheduleKeyDeletion _ | .deleteObjects _ _
  | .deleteBucket _ | .deleteAccessKey _ _ | .deleteUserPolicy _ _ | .deleteUser _ => .ok ()

theorem answer_truthful {certificates : List String} {aliases : List KeyAlias}
    (hcertificates : ∀ name ∈ certificates, .certificate name ∈ account.resources)
    (haliases : ∀ item ∈ aliases, (item.aliasName, item.targetKeyId) ∈ account.aliases) :
    ∀ call, account.Truthful call (answer certificates aliases call) := by
  intro call
  cases call <;> simp_all [Account.Truthful, answer]

/-- A call of a sweep is made when the sweeps before it return. -/
theorem mem_play_sweepResources {reply : (call : SecurityCall) → call.Reply} {call : SecurityCall}
    {first rest : List (TeardownProgram (List String))} {sweep : TeardownProgram (List String)}
    (hfirst : ∀ sweep ∈ first, ∃ errors, (sweep.play reply).2 = .ok errors)
    (h : call ∈ (sweep.play reply).1) :
    call ∈ ((sweepResources (first ++ sweep :: rest)).play reply).1 := by
  induction first with
  | nil =>
    apply Program.mem_play_bind_left
    rwa [Program.play_attempt]
  | cons other first ih =>
    have ⟨⟨errors, hother⟩, hrest⟩ := List.forall_mem_cons.mp hfirst
    have houtcome : (other.attempt.play reply).2 =
        (.ok (.ok errors) : Except AwsError (Except AwsError (List String))) := by
      rw [Program.play_attempt, hother]
    exact Program.mem_play_bind_right houtcome (Program.mem_play_bind_left (ih hrest))

theorem mem_play_main {certificates : List String} {aliases : List KeyAlias} {call : SecurityCall}
    (h : call ∈ ((sweepResources resourceSweeps).play (answer certificates aliases)).1) :
    call ∈ ((main false).play (answer certificates aliases)).1 := by
  apply Program.mem_play_bind_left
  rw [Program.play_attempt]
  have hclients : ((createClients ["iam", "ec2", "elbv2", "kms", "s3"]).play
      (answer certificates aliases)).2 = .ok () := rfl
  exact Program.mem_play_bind_right hclients (Program.mem_play_bind_left h)

theorem play_quiet (certificates : List String) (aliases : List KeyAlias) :
    ∀ sweep ∈ [cleanupOwnedLoadBalancers, cleanupOwnedTargetGroups, cleanupOwnedInstances,
      cleanupOwnedVolumes, cleanupOwnedVpcs],
      ∃ errors, (sweep.play (answer certificates aliases)).2 = .ok errors := by
  simp only [List.forall_mem_cons, List.not_mem_nil, IsEmpty.forall_iff, implies_true, and_true]
  have hbalancers : (cleanupOwnedLoadBalancers.play (answer certificates aliases)).2 = .ok [] := by
    simp [cleanupOwnedLoadBalancers, answer, sweepArns, batches, ownedArns, collect]
  have hgroups : (cleanupOwnedTargetGroups.play (answer certificates aliases)).2 = .ok [] := by
    simp [cleanupOwnedTargetGroups, answer, sweepArns, batches, ownedArns, collect]
  exact ⟨⟨[], hbalancers⟩, ⟨[], hgroups⟩, ⟨[], rfl⟩, ⟨[], rfl⟩, ⟨[], rfl⟩⟩

/-- A certificate of an owned name is deleted, whatever its tags. -/
theorem deletes_certificate {name : String} (hname : Text.startsWith name sec13Prefix) :
    .deleteServerCertificate name ∈ ((main false).play (answer [name] [])).1 := by
  apply mem_play_main
  apply mem_play_sweepResources (play_quiet [name] [])
  simp [cleanupOwnedIamServerCerts, answer, collect, cleanupOwnedIamServerCerts.sweep, hname,
    releaseOr, deleteWithRetry, nlbResourceReleaseRetryAttempts]

/-- An alias of an owned name is deleted, whatever the tags of the key. -/
theorem deletes_alias {item : KeyAlias}
    (hname : Text.startsWith item.aliasName sec11KmsAliasPrefix) :
    .deleteAlias item.aliasName ∈ ((main false).play (answer [] [item])).1 := by
  have hquiet : ∀ sweep ∈ [cleanupOwnedLoadBalancers, cleanupOwnedTargetGroups,
      cleanupOwnedInstances, cleanupOwnedVolumes, cleanupOwnedVpcs, cleanupOwnedIamServerCerts],
      ∃ errors, (sweep.play (answer [] [item])).2 = .ok errors := by
    intro sweep hmem
    rcases List.mem_append.mp (show sweep ∈ [_, _, _, _, _] ++ [_] from hmem) with hfirst | hlast
    · exact play_quiet [] [item] sweep hfirst
    · rw [List.mem_singleton.mp hlast]
      exact ⟨[], rfl⟩
  apply mem_play_main
  apply mem_play_sweepResources hquiet
  apply List.mem_cons_of_mem
  apply Program.mem_play_bind_left
  apply Program.mem_play_bind_left
  dsimp only
  rw [if_pos hname]
  exact List.mem_cons_self

/-- A call which such answers lead to is made in some run. -/
theorem exists_run {certificates : List String} {aliases : List KeyAlias} {call : SecurityCall}
    (hcertificates : ∀ name ∈ certificates, .certificate name ∈ account.resources)
    (haliases : ∀ item ∈ aliases, (item.aliasName, item.targetKeyId) ∈ account.aliases)
    (h : call ∈ ((main false).play (answer certificates aliases)).1) :
    ∃ trace outcome, TeardownRun account false trace outcome ∧ ∃ exchange ∈ trace, exchange.op = call := by
  have htrue := answer_truthful hcertificates haliases
  have ⟨trace, _, hexecution, _, hops⟩ : ∃ trace last, TeardownRun account false trace _ ∧
      last = () ∧ trace.map Exchange.op = _ :=
    Program.exists_execution (fun _ hworld call ↦ ⟨(), htrue call, hworld⟩) (main false) rfl
  rw [← hops] at h
  exact ⟨trace, _, hexecution, List.mem_map.mp h⟩

/-- Where only owned things are destroyed, names suffice. -/
theorem namesSuffice_of_onlyOwnedDestroyed (h : account.OnlyOwnedDestroyed) :
    account.NamesSuffice := by
  constructor
  · intro name hexists hname
    have ⟨trace, outcome, hrun, exchange, hmem, hop⟩ := exists_run
      (List.forall_mem_singleton.mpr hexists) (by simp) (deletes_certificate hname)
    have hpermitted := h false trace outcome hrun exchange hmem
    rw [hop] at hpermitted
    exact hpermitted.2
  · intro aliasName keyId hexists hname
    have haliases : ∀ item ∈ [(⟨aliasName, keyId⟩ : KeyAlias)],
        (item.aliasName, item.targetKeyId) ∈ account.aliases := by simpa using hexists
    have ⟨trace, outcome, hrun, exchange, hmem, hop⟩ := exists_run (by simp) haliases
      (deletes_alias hname)
    have hpermitted := h false trace outcome hrun exchange hmem
    rw [hop] at hpermitted
    have ⟨other, hother, _, htagged⟩ := hpermitted
    rwa [account.alias_unique aliasName keyId other hexists hother]

/-- A teardown destroys only what it owns exactly when the names of certificates and the aliases of keys
say enough. -/
theorem securityTeardown_destroysOnlyOwned_iff (account : Account) :
    account.OnlyOwnedDestroyed ↔ account.NamesSuffice := by
  constructor
  · exact namesSuffice_of_onlyOwnedDestroyed
  · intro h skipDestroy trace outcome hrun
    exact (keeps_main h skipDestroy).mem_trace (fun _ _ _ _ hstep ↦ hstep) hrun

/-- An account where an alias of an owned name points at a key of somebody else. -/
def sharedKeyAccount : Account where
  resources := {.key "key-1"}
  tags _ := []
  nodup_keys _ := List.nodup_nil
  isLoadBalancer _ := false
  vpcOf _ := none
  associationOf _ := none
  attached := ∅
  aliases := {("alias/isv-sec11-test-app", "key-1")}
  alias_unique _ keyId other h hother := by
    have hkey : keyId = "key-1" := (Prod.mk.inj h).2
    have hsame : other = "key-1" := (Prod.mk.inj hother).2
    rw [hkey, hsame]

theorem untagged_key_destroyed : ¬ sharedKeyAccount.OnlyOwnedDestroyed := by
  intro h
  have htagged := (namesSuffice_of_onlyOwnedDestroyed h).2 "alias/isv-sec11-test-app" "key-1" rfl
    (by decide)
  exact List.not_mem_nil htagged

end Teardown

end IsvValidation.Security
