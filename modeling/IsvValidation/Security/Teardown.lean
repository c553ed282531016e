import IsvValidation.Aws.Errors
import IsvValidation.Host.Text
import IsvValidation.Library.OrderedMap
import IsvValidation.Library.Program

/-!
# Security teardown

The sweep for what the security tests may have left behind, as a program over the calls it makes. What
is read page by page is one call, whose reply has the pages which the service hands out and the error
which ends them, if one does. Sleeps and logging are left out.
-/

namespace IsvValidation.Security

open Host Library
open Aws (AwsError alreadyGoneCodes transientAwsCodes classifyAwsError)

/-! ## Calls -/

structure Tag where
  key : String
  value : String
  deriving DecidableEq

/-- What is read page by page. -/
structure Listing (α : Type) where
  pages : List (List α) := []
  error : Option AwsError := none

/-- What is read with one call, which may leave a further page unread. -/
structure Page (α : Type) where
  items : List α := []
  nextToken : Option String := none

structure Instance where
  instanceId : String
  state : String
  tags : List Tag

/-- A volume or a VPC. -/
structure TaggedItem where
  id : String
  tags : List Tag

structure Association where
  main : Bool
  associationId : String

structure RouteTable where
  routeTableId : String
  associations : List Association

structure SecurityGroup where
  groupId : String
  groupName : String

structure KeyAlias where
  aliasName : String
  targetKeyId : String

structure ObjectVersion where
  key : String
  versionId : String

inductive SecurityCall where
  | client (service : String)
  | describeLoadBalancers
  | describeTargetGroups
  | describeTags (resourceArns : List String)
  | describeInstances
  | describeVolumes
  | describeVpcs
  | describeRouteTables (vpcId : String)
  | describeSecurityGroups (vpcId : String)
  | describeSubnets (vpcId : String)
  | describeInternetGateways (vpcId : String)
  | listServerCertificates
  | listAliases
  | listBuckets
  | getBucketTagging (bucket : String)
  | listObjectVersions (bucket : String)
  | listUsers
  | listUserTags (userName : String)
  | listAccessKeys (userName : String)
  | listUserPolicies (userName : String)
  | deleteLoadBalancer (arn : String)
  | waitLoadBalancersDeleted (arn : String)
  | deleteTargetGroup (arn : String)
  | terminateInstances (instanceIds : List String)
  | waitInstanceTerminated (instanceIds : List String)
  | deleteVolume (volumeId : String)
  | disassociateRouteTable (associationId : String)
  | deleteRouteTable (routeTableId : String)
  | deleteSecurityGroup (groupId : String)
  | deleteSubnet (subnetId : String)
  | detachInternetGateway (gatewayId vpcId : String)
  | deleteInternetGateway (gatewayId : String)
  | deleteVpc (vpcId : String)
  | deleteServerCertificate (name : String)
  | deleteAlias (aliasName : String)
  | scheduleKeyDeletion (keyId : String)
  | deleteObjects (bucket : String) (objects : List ObjectVersion)
  | deleteBucket (bucket : String)
  | deleteAccessKey (userName accessKeyId : String)
  | deleteUserPolicy (userName policyName : String)
  | deleteUser (userName : String)

/-- What is read of the reply to a call. -/
@[reducible] def SecurityCall.Reply : SecurityCall → Type
  | describeLoadBalancers => Listing String
  | describeTargetGroups => Listing String
  | describeTags _ => Except AwsError (List (String × List Tag))
  | describeInstances => Listing Instance
  | describeVolumes => Listing TaggedItem
  | describeVpcs => Except AwsError (Page TaggedItem)
  | describeRouteTables _ => Except AwsError (Page RouteTable)
  | describeSecurityGroups _ => Except AwsError (Page SecurityGroup)
  | describeSubnets _ => Except AwsError (Page String)
  | describeInternetGateways _ => Except AwsError (Page String)
  | listServerCertificates => Listing String
  | listAliases => Listing KeyAlias
  | listBuckets => Except AwsError (Page String)
  | getBucketTagging _ => Except AwsError (List Tag)
  | listObjectVersions _ => Listing ObjectVersion
  | listUsers => Listing String
  | listUserTags _ => Listing Tag
  | listAccessKeys _ => Except AwsError (Page String)
  | listUserPolicies _ => Except AwsError (Page String)
  | _ => Except AwsError Unit

abbrev TeardownProgram := Program SecurityCall SecurityCall.Reply AwsError

/-! ## Prefixes and tags -/

def ownedUserPrefixes : List String :=
  ["isv-sa-test-", "isv-sec02-test-", "isv-sec04-test-", "isv-sec11-test-"]

def sec04Prefix : String := "isv-sec04-test-"
def sec11Prefix : String := "isv-sec11-test-"
def sec13Prefix : String := "isv-sec13-test-"

def ownedResourcePrefixes : List String := [sec04Prefix, sec11Prefix, sec13Prefix]

def sec11KmsAliasPrefix : String := "alias/" ++ sec11Prefix

/-- `name.startswith(prefixes)`. -/
def startsWithAny (prefixes : List String) (name : String) : Bool :=
  prefixes.any (Text.startsWith name)

/-- `{t["Key"]: t["Value"] for t in tags}.get(key)`. -/
def tagValue (tags : List Tag) (key : String) : Option String :=
  (OrderedMap.ofList (tags.map fun tag ↦ (tag.key, tag.value))).get? key

/-- `_resource_has_owned_name`. -/
def resourceHasOwnedName (tags : List Tag) : Bool :=
  tags.any fun tag ↦ tag.key = "Name" && startsWithAny ownedResourcePrefixes tag.value

/-- The tags of a load balancer, a target group or a bucket say who created it. -/
def createdByIsvtest (tags : List Tag) : Bool := tagValue tags "CreatedBy" = some "isvtest"

/-- The tags of a load balancer or a target group make it an owned one. -/
def hasOwnedTags (tags : List Tag) : Bool :=
  createdByIsvtest tags && startsWithAny ownedResourcePrefixes ((tagValue tags "Name").getD "")

/-! ## Retries -/

/-- `delete_with_retry`: whether the call succeeded, or there was nothing left to delete. -/
def deleteWithRetry (fn : TeardownProgram Unit) (transientCodes : List String) :
    ℕ → TeardownProgram Bool
  | 0 => .done false
  | attempts + 1 => fn.attempt.bind fun
    | .ok () => .done true
    | .error (.client code _) =>
      if code ∈ alreadyGoneCodes then .done true
      else if code ∈ transientCodes ∧ attempts ≠ 0 then deleteWithRetry fn transientCodes attempts
      else .done false
    | .error (.other _ _) => .done false
    | .error _ => if attempts ≠ 0 then deleteWithRetry fn transientCodes attempts else .done false

def certDeleteTransientCodes : List String := transientAwsCodes ++ ["DeleteConflict"]

def nlbResourceReleaseTransientCodes : List String := transientAwsCodes ++ ["DependencyViolation"]

def nlbResourceReleaseRetryAttempts : ℕ := 10

/-- Report `error` when a deletion fails with the default retries. -/
def deleteOr (error : String) (call : TeardownProgram Unit) : TeardownProgram (List String) := do
  return if ← deleteWithRetry call transientAwsCodes 3 then [] else [error]

/-- The same with the retries for what a load balancer holds on to. -/
def releaseOr (error : String) (call : TeardownProgram Unit)
    (transientCodes : List String := nlbResourceReleaseTransientCodes) :
    TeardownProgram (List String) := do
  return if ← deleteWithRetry call transientCodes nlbResourceReleaseRetryAttempts then [] else [error]

/-- The errors of one sweep after the other. -/
def collect {α : Type} (sweep : α → TeardownProgram (List String)) :
    List α → TeardownProgram (List String)
  | [] => .done []
  | item :: rest => (sweep item).bind fun errors ↦
    (collect sweep rest).bind fun others ↦ .done (errors ++ others)

/-- Sweep the items of all pages; an error which ends the listing is raised after them. -/
def sweepPages {α : Type} (listing : Listing α) (sweep : α → TeardownProgram (List String)) :
    TeardownProgram (List String) :=
  (collect sweep listing.pages.flatten).bind fun errors ↦
    match listing.error with
    | none => .done errors
    | some error => .raise error

/-- A `try` around one call: an error reply of the service is handled, any other error is raised. -/
def onReply {α β : Type} (reply : Except AwsError α) (next : α → TeardownProgram β)
    (handle : (code text : String) → TeardownProgram β) : TeardownProgram β :=
  match reply with
  | .ok response => next response
  | .error (.client code text) => handle code text
  | .error error => .raise error

/-! ## Load balancers and target groups -/

def elbv2ReadPermissionErrors : List String :=
  ["AccessDenied", "AccessDeniedException", "UnauthorizedOperation"]

/-- `arns[i : i + 20] for i in range(0, len(arns), 20)`. -/
def batches (arns : List String) : List (List String) :=
  (List.range ((arns.length + 19) / 20)).map fun i ↦ (arns.drop (20 * i)).take 20

/-- The owned ones of a batch, or an error. -/
def ownedArnsOf (what : String) (batch : List String) :
    TeardownProgram (List String × List String) :=
  .call (.describeTags batch) fun reply ↦ onReply reply
    (fun descriptions ↦
      .done ([], (descriptions.filter fun description ↦ hasOwnedTags description.2).map Prod.fst))
    fun _ text ↦ .done ([s!"describe {what} tags {batch}: {text}"], [])

/-- The errors and the owned ones of all batches. -/
def ownedArns (what : String) : List (List String) → TeardownProgram (List String × List String)
  | [] => .done ([], [])
  | batch :: rest => (ownedArnsOf what batch).bind fun found ↦
    (ownedArns what rest).bind fun others ↦ .done (found.1 ++ others.1, found.2 ++ others.2)

/-- What the sweeps over load balancers and over target groups share: an account which may not read
them is passed over. -/
def sweepArns (what plural : String) (listing : Listing String)
    (sweep : String → TeardownProgram (List String)) : TeardownProgram (List String) :=
  match listing.error with
  | none => (ownedArns what (batches listing.pages.flatten)).bind fun found ↦
    (collect sweep found.2).bind fun errors ↦ .done (found.1 ++ errors)
  | some (.client code text) =>
    .done (if code ∈ elbv2ReadPermissionErrors then [] else [s!"describe {plural}: {text}"])
  | some error => .raise error

/-- A waiter which may fail. -/
def awaitOr (message : String) (call : TeardownProgram Unit) : TeardownProgram (List String) :=
  call.attempt.bind fun
    | .ok () => .done []
    | .error (.client _ text) => .done [s!"{message}: {text}"]
    | .error (.botoCore "WaiterError" text) => .done [s!"{message}: {text}"]
    | .error error => .raise error

def deleteLoadBalancer (arn : String) : TeardownProgram (List String) :=
  .call (.deleteLoadBalancer arn) fun reply ↦ onReply reply (fun _ ↦ gone) fun code text ↦
    if code = "LoadBalancerNotFound" then gone else .done [s!"delete load balancer {arn}: {text}"]
where
  gone : TeardownProgram (List String) :=
    awaitOr s!"wait load balancer deleted {arn}" (.call (.waitLoadBalancersDeleted arn) .ofExcept)

/-- `_cleanup_owned_load_balancers`. -/
def cleanupOwnedLoadBalancers : TeardownProgram (List String) :=
  .call .describeLoadBalancers fun listing ↦
    sweepArns "LB" "load balancers" listing deleteLoadBalancer

/-- `_cleanup_owned_target_groups`. -/
def cleanupOwnedTargetGroups : TeardownProgram (List String) :=
  .call .describeTargetGroups fun listing ↦ sweepArns "TG" "target groups" listing fun arn ↦
    deleteOr s!"delete target group {arn} failed" (.call (.deleteTargetGroup arn) .ofExcept)

/-! ## Instances and volumes -/

def terminateInstances (instanceIds : List String) : TeardownProgram (List String) :=
  .call (.terminateInstances instanceIds) fun reply ↦ onReply reply
    (fun _ ↦ awaitOr s!"wait terminated {instanceIds}"
      (.call (.waitInstanceTerminated instanceIds) .ofExcept))
    fun _ text ↦ .done [s!"terminate instances {instanceIds}: {text}"]

/-- `_cleanup_owned_instances`. -/
def cleanupOwnedInstances : TeardownProgram (List String) :=
  .call .describeInstances fun listing ↦
    match listing.error with
    | some error => .raise error
    | none =>
      let instanceIds := (listing.pages.flatten.filter fun item ↦
        item.state ≠ "terminated" && resourceHasOwnedName item.tags).map Instance.instanceId
      if instanceIds = [] then .done [] else terminateInstances instanceIds

/-- `_cleanup_owned_volumes`. -/
def cleanupOwnedVolumes : TeardownProgram (List String) :=
  .call .describeVolumes fun listing ↦ sweepPages listing fun volume ↦
    if resourceHasOwnedName volume.tags then
      deleteOr s!"delete volume {volume.id} failed" (.call (.deleteVolume volume.id) .ofExcept)
    else .done []

/-! ## VPCs -/

/-- An association of a route table; one without an id is passed over. -/
def disassociate (association : Association) : TeardownProgram (List String) :=
  if association.associationId = "" then .done []
  else
    .call (.disassociateRouteTable association.associationId) fun reply ↦ onReply reply
      (fun _ ↦ .done []) fun code text ↦
        .done (if code = "InvalidAssociationID.NotFound" then []
          else [s!"disassociate route table {association.associationId}: {text}"])

def cleanupRouteTable (table : RouteTable) : TeardownProgram (List String) :=
  if table.associations.any Association.main then .done []
  else (collect disassociate table.associations).bind fun errors ↦
    (deleteOr s!"delete route table {table.routeTableId} failed"
      (.call (.deleteRouteTable table.routeTableId) .ofExcept)).bind fun others ↦
        .done (errors ++ others)

def cleanupSecurityGroup (group : SecurityGroup) : TeardownProgram (List String) :=
  if group.groupName = "default" then .done []
  else deleteOr s!"delete security group {group.groupId} failed"
    (.call (.deleteSecurityGroup group.groupId) .ofExcept)

def cleanupSubnet (subnetId : String) : TeardownProgram (List String) :=
  releaseOr s!"delete subnet {subnetId} failed" (.call (.deleteSubnet subnetId) .ofExcept)

/-- `_detach_internet_gateway`. -/
def detachInternetGateway (gatewayId vpcId : String) : TeardownProgram Unit :=
  .call (.detachInternetGateway gatewayId vpcId) fun reply ↦ onReply reply .done fun code text ↦
    if code = "Gateway.NotAttached" ∨ code = "InvalidInternetGatewayID.NotFound" then .done ()
    else .raise (.client code text)

def cleanupInternetGateway (vpcId gatewayId : String) : TeardownProgram (List String) :=
  (releaseOr s!"detach IGW {gatewayId} failed" (detachInternetGateway gatewayId vpcId)).bind
    fun errors ↦
      (releaseOr s!"delete IGW {gatewayId} failed"
        (.call (.deleteInternetGateway gatewayId) .ofExcept)).bind fun others ↦
          .done (errors ++ others)

/-- One round of `_cleanup_owned_vpcs`. -/
def cleanupVpc (vpcId : String) : TeardownProgram (List String) := do
  let tables ← .call (.describeRouteTables vpcId) .ofExcept
  let tableErrors ← collect cleanupRouteTable tables.items
  let groups ← .call (.describeSecurityGroups vpcId) .ofExcept
  let groupErrors ← collect cleanupSecurityGroup groups.items
  let subnets ← .call (.describeSubnets vpcId) .ofExcept
  let subnetErrors ← collect cleanupSubnet subnets.items
  let gateways ← .call (.describeInternetGateways vpcId) .ofExcept
  let gatewayErrors ← collect (cleanupInternetGateway vpcId) gateways.items
  let vpcErrors ← releaseOr s!"delete VPC {vpcId} failed" (.call (.deleteVpc vpcId) .ofExcept)
  return tableErrors ++ groupErrors ++ subnetErrors ++ gatewayErrors ++ vpcErrors

/-- `_cleanup_owned_vpcs`. -/
def cleanupOwnedVpcs : TeardownProgram (List String) := do
  let vpcs ← .call .describeVpcs .ofExcept
  collect (fun vpc ↦ if resourceHasOwnedName vpc.tags then cleanupVpc vpc.id else .done []) vpcs.items

/-! ## Certificates, keys and buckets -/

/-- `_cleanup_owned_iam_server_certs`. -/
def cleanupOwnedIamServerCerts : TeardownProgram (List String) :=
  .call .listServerCertificates fun listing ↦
    (collect sweep listing.pages.flatten).bind fun errors ↦
      match listing.error with
      | none => .done errors
      | some (.client _ text) => .done (errors ++ [s!"list server certificates: {text}"])
      | some error => .raise error
where
  sweep (name : String) : TeardownProgram (List String) :=
    if Text.startsWith name sec13Prefix then
      releaseOr s!"delete IAM server cert {name} failed" (.call (.deleteServerCertificate name) .ofExcept)
        certDeleteTransientCodes
    else .done []

/-- An alias and the key it points at. -/
def cleanupAlias (item : KeyAlias) : TeardownProgram (List String) :=
  .call (.deleteAlias item.aliasName) fun reply ↦ onReply reply (fun _ ↦ schedule []) fun code text ↦
    schedule (if code = "NotFoundException" then []
      else [s!"delete kms alias {item.aliasName}: {text}"])
where
  schedule (errors : List String) : TeardownProgram (List String) :=
    if item.targetKeyId = "" then .done errors
    else
      .call (.scheduleKeyDeletion item.targetKeyId) fun reply ↦ onReply reply
        (fun _ ↦ .done errors) fun code text ↦
          .done (if code = "NotFoundException" ∨ code = "KMSInvalidStateException" then errors
            else errors ++ [s!"schedule kms key {item.targetKeyId} deletion: {text}"])

/-- `_cleanup_owned_kms`. -/
def cleanupOwnedKms : TeardownProgram (List String) :=
  .call .listAliases fun listing ↦ sweepPages listing fun item ↦
    if Text.startsWith item.aliasName sec11KmsAliasPrefix then cleanupAlias item else .done []

/-- The pages of a bucket's versions, each deleted before the next is read. -/
def emptyBucket (bucket : String) (listingError : Option AwsError) :
    List (List ObjectVersion) → TeardownProgram (List String)
  | [] =>
    match listingError with
    | none => .done []
    | some error => onReply (.error error) .done failed
  | [] :: rest => emptyBucket bucket listingError rest
  | objects :: rest =>
    .call (.deleteObjects bucket objects) fun reply ↦
      onReply reply (fun _ ↦ emptyBucket bucket listingError rest) failed
where
  failed (code text : String) : TeardownProgram (List String) :=
    .done (if code = "NoSuchBucket" then [] else [s!"empty bucket {bucket}: {text}"])

/-- The deletion of a bucket which is known to be owned. -/
def cleanupBucket (bucket : String) : TeardownProgram (List String) :=
  .call (.listObjectVersions bucket) fun listing ↦
    (emptyBucket bucket listing.error listing.pages).bind fun errors ↦
      (deleteOr s!"delete bucket {bucket} failed" (.call (.deleteBucket bucket) .ofExcept)).bind
        fun others ↦ .done (errors ++ others)

/-- One round of `_cleanup_owned_buckets`. -/
def sweepBucket (bucket : String) : TeardownProgram (List String) :=
  if startsWithAny ownedResourcePrefixes bucket then
    .call (.getBucketTagging bucket) fun reply ↦ onReply reply
      (fun tags ↦ if createdByIsvtest tags then cleanupBucket bucket else .done []) fun code text ↦
        .done (if code = "NoSuchTagSet" then [] else [s!"get_bucket_tagging {bucket}: {text}"])
  else .done []

/-- `_cleanup_owned_buckets`. -/
def cleanupOwnedBuckets : TeardownProgram (List String) :=
  .call .listBuckets fun reply ↦ onReply reply (fun buckets ↦ collect sweepBucket buckets.items)
    fun _ text ↦ .done [s!"list_buckets: {text}"]

/-! ## Users -/

/-- `_user_has_isvtest_tag`: an error counts as no tag. -/
def userHasIsvtestTag (userName : String) : TeardownProgram Bool :=
  .call (.listUserTags userName) fun listing ↦
    if listing.pages.flatten.any fun tag ↦ tag.key = "CreatedBy" && tag.value = "isvtest" then
      .done true
    else
      match listing.error with
      | none => .done false
      | some (.client _ _) => .done false
      | some error => .raise error

/-- A call of `_cleanup_owned_user` whose error reply is reported. -/
def callOr (message : String) (call : TeardownProgram Unit) : TeardownProgram (List String) :=
  call.attempt.bind fun
    | .ok () => .done []
    | .error (.client _ text) => .done [s!"{message}: {text}"]
    | .error error => .raise error

/-- `_cleanup_owned_user`. -/
def cleanupOwnedUser (userName : String) : TeardownProgram (List String) :=
  .call (.listAccessKeys userName) fun keys ↦
    (listed keys s!"list access keys for {userName}" fun accessKeyId ↦
      callOr s!"delete access key {accessKeyId} for {userName}"
        (.call (.deleteAccessKey userName accessKeyId) .ofExcept)).bind fun keyErrors ↦
    .call (.listUserPolicies userName) fun policies ↦
      (listed policies s!"list inline policies for {userName}" fun policyName ↦
        callOr s!"delete inline policy {policyName} for {userName}"
          (.call (.deleteUserPolicy userName policyName) .ofExcept)).bind fun policyErrors ↦
      (callOr s!"delete user {userName}" (.call (.deleteUser userName) .ofExcept)).bind
        fun userErrors ↦ .done (keyErrors ++ policyErrors ++ userErrors)
where
  listed (reply : Except AwsError (Page String)) (message : String)
      (sweep : String → TeardownProgram (List String)) : TeardownProgram (List String) :=
    onReply reply (fun page ↦ collect sweep page.items) fun _ text ↦ .done [s!"{message}: {text}"]

/-- What `_sweep_iam_users` counts. -/
structure UserSweep where
  cleaned : ℕ := 0
  skippedUnowned : ℕ := 0
  failedResources : List (String × List String) := []
  deriving DecidableEq

/-- One user of `_sweep_iam_users`. -/
def sweepUser (sweep : UserSweep) (userName : String) : TeardownProgram UserSweep :=
  if startsWithAny ownedUserPrefixes userName then
    (userHasIsvtestTag userName).bind fun owned ↦
      if owned then
        (cleanupOwnedUser userName).bind fun errors ↦
          .done (if errors = [] then { sweep with cleaned := sweep.cleaned + 1 }
            else { sweep with failedResources := sweep.failedResources ++ [(userName, errors)] })
      else .done { sweep with skippedUnowned := sweep.skippedUnowned + 1 }
  else .done sweep

def sweepUsers (sweep : UserSweep) : List String → TeardownProgram UserSweep
  | [] => .done sweep
  | userName :: rest => (sweepUser sweep userName).bind fun sweep ↦ sweepUsers sweep rest

/-- `_sweep_iam_users`. -/
def sweepIamUsers : TeardownProgram UserSweep :=
  .call .listUsers fun listing ↦ (sweepUsers {} listing.pages.flatten).bind fun sweep ↦
    match listing.error with
    | none => .done sweep
    | some error => .raise error

/-! ## The teardown -/

/-- What is printed; `success` decides the exit code. -/
structure TeardownReport where
  success : Bool
  skipped : Bool := false
  errorType : Option String := none
  error : Option String := none
  users : UserSweep := {}
  resourceErrors : List String := []
  deriving DecidableEq

/-- The sweeps in their order. Load balancers go before what they hold on to, instances before volumes,
and VPCs after compute. -/
def resourceSweeps : List (TeardownProgram (List String)) :=
  [cleanupOwnedLoadBalancers, cleanupOwnedTargetGroups, cleanupOwnedInstances, cleanupOwnedVolumes,
    cleanupOwnedVpcs, cleanupOwnedIamServerCerts, cleanupOwnedKms, cleanupOwnedBuckets]

/-- The sweeps up to an error reply which one of them raises; the errors before it stay. -/
def sweepResources : List (TeardownProgram (List String)) → TeardownProgram (List String)
  | [] => .done []
  | sweep :: rest => sweep.attempt.bind fun
    | .ok errors => (sweepResources rest).bind fun others ↦ .done (errors ++ others)
    | .error (.client _ text) => .done [text]
    | .error error => .raise error

/-- The end of `main`: the error of the user sweep, if one was raised, and what was collected. -/
def teardownReport (userError : Option String) (users : UserSweep) (resourceErrors : List String) :
    TeardownReport :=
  let messages :=
    (if users.failedResources = [] then []
      else [s!"Failed to clean up {users.failedResources.length} owned IAM user(s): " ++
        "; ".intercalate (users.failedResources.map fun item ↦
          item.1 ++ ": " ++ ", ".intercalate item.2)]) ++
    if resourceErrors = [] then []
    else ["security resource sweep errors: " ++ "; ".intercalate resourceErrors]
  { success := messages = [] ∧ userError = none
    error := if messages = [] then userError
      else some ("; ".intercalate (userError.toList.filter (· ≠ "") ++ messages))
    users, resourceErrors }

def createClients : List String → TeardownProgram Unit
  | [] => .done ()
  | service :: rest => .call (.client service) fun
    | .ok _ => createClients rest
    | .error error => .raise error

/-- The body of `main`. -/
def securityTeardown (skipDestroy : Bool) : TeardownProgram TeardownReport :=
  if skipDestroy then .done { success := true, skipped := true }
  else
    (createClients ["iam", "ec2", "elbv2", "kms", "s3"]).bind fun _ ↦
    (sweepResources resourceSweeps).bind fun resourceErrors ↦
    sweepIamUsers.attempt.bind fun
      | .ok users => .done (teardownReport none users resourceErrors)
      | .error (.client _ text) => .done (teardownReport (some text) {} resourceErrors)
      | .error error => .raise error

/-- `main` under `handle_aws_errors`. -/
def main (skipDestroy : Bool) : TeardownProgram TeardownReport :=
  (securityTeardown skipDestroy).attempt.bind fun
    | .ok report => .done report
    | .error error =>
      let (errorType, message) := classifyAwsError error
      .done { success := false, errorType := some errorType, error := some message }

end IsvValidation.Security
