import IsvValidation.Host.Text
import IsvValidation.Library.Execution
import IsvValidation.Aws.Errors

/-!
# Atomic allocation of a topology block

`topology_block_atomic_allocation` as a program over the calls it makes: it creates a placement
group, a capacity reservation in the first candidate zone which has capacity, and instances in the
reservation, reports whether they were allocated as one unit, and cleans up what it knows of. The
sleeps between retries are left out.
-/

namespace IsvValidation.Aws

open Host Library

/-! ## Calls -/

structure BlockArgs where
  region : String
  tenantId : String := ""
  topologyBlockId : String
  instanceType : String
  instancePlatform : String := "Linux/UNIX"
  availabilityZone : String
  placementGroup : String
  requestedNodes : ℕ
  requestedNetwork : ℕ
  requestedStorage : ℕ
  amiId : String := ""
  skipDestroy : Bool := false
  teardown : Bool := false

structure Tag where
  key : Option String
  value : Option String
  deriving DecidableEq

structure Instance where
  instanceId : Option String
  instanceType : Option String
  availabilityZone : Option String
  groupName : Option String
  state : Option String
  tags : List Tag
  deriving DecidableEq

structure Image where
  imageId : String
  creationDate : String
  deriving DecidableEq

structure Reservation where
  reservationId : Option String
  state : Option String
  deriving DecidableEq

structure ReservationRequest where
  instanceType : String
  instancePlatform : String
  availabilityZone : String
  placementGroupArn : String
  instanceCount : ℕ
  tags : List Tag
  deriving DecidableEq

structure LaunchRequest where
  imageId : String
  instanceType : String
  count : ℕ
  reservationId : String
  availabilityZone : String
  groupName : String
  tags : List Tag
  deriving DecidableEq

inductive BlockCall where
  | ec2Client (region : String)
  | stsClient (region : String)
  | getCallerIdentity
  | describeInstanceTypeOfferings (instanceType : String)
  | createPlacementGroup (groupName : String) (tags : List Tag)
  | describePlacementGroups (groupName : String)
  | createCapacityReservation (request : ReservationRequest)
  | describeImages (instanceType : String)
  | runInstances (request : LaunchRequest)
  | waitInstanceRunning (instanceIds : List String)
  | describeInstances (instanceIds : List String)
  | describeTaggedInstances (topologyBlockId : String)
  | describeTaggedReservations (topologyBlockId : String)
  | terminateInstances (instanceIds : List String)
  | waitInstanceTerminated (instanceIds : List String)
  | cancelCapacityReservation (reservationId : String)
  | deletePlacementGroup (groupName : String)
  deriving DecidableEq

/-- What is read of the response to a call. -/
@[reducible] def BlockCall.Response : BlockCall → Type
  | getCallerIdentity => String
  | describeInstanceTypeOfferings _ => List String
  | describePlacementGroups _ => List (Option String)
  | createCapacityReservation _ => String
  | describeImages _ => List Image
  | runInstances _ => List String
  | describeInstances _ => List Instance
  | describeTaggedInstances _ => List Instance
  | describeTaggedReservations _ => List Reservation
  | _ => Unit

abbrev BlockReply (call : BlockCall) : Type := Except AwsError call.Response

abbrev BlockProgram := Program BlockCall BlockReply AwsError

abbrev invoke (call : BlockCall) : BlockProgram call.Response := Program.invoke call

/-! ## Cleaning up -/

def instanceAlreadyGoneCodes : List String := ["InvalidInstanceID.NotFound"]

def capacityReservationAlreadyGoneCodes : List String := ["InvalidCapacityReservationId.NotFound"]

def placementGroupAlreadyGoneCodes : List String := ["InvalidPlacementGroup.Unknown"]

def placementGroupRetryableDeleteCodes : List String :=
  transientAwsCodes ++ ["DependencyViolation", "InvalidPlacementGroup.InUse"]

def placementGroupDeleteAttempts : ℕ := 10

/-- `_cleanup_call`: the error which is left after all attempts, if any. -/
def cleanupCall (call : BlockCall) (action : String) (goneCodes retryCodes : List String) :
    ℕ → BlockProgram (Option String)
  | 0 => .done none
  | attempts + 1 => .call call fun
    | .ok _ => .done none
    | .error (.client code text) =>
      if code ∈ goneCodes then .done none
      else if code ∈ retryCodes ∧ attempts ≠ 0 then
        cleanupCall call action goneCodes retryCodes attempts
      else .done (some s!"{action}: {(classifyAwsError (.client code text)).2}")
    | .error error => .done (some s!"{action}: {error.typeName}: {error.text}")

/-- `_terminate_instances`. -/
def terminateInstances (instanceIds : List String) : BlockProgram (List String) := do
  match ← cleanupCall (.terminateInstances instanceIds) "terminate_instances"
      instanceAlreadyGoneCodes transientAwsCodes 3 with
  | some error => return [error]
  | none =>
    match ← (invoke (.waitInstanceTerminated instanceIds)).attempt with
    | .ok _ => return []
    | .error error => return [s!"instance_terminated waiter: {error.typeName}: {error.text}"]

/-- `_cancel_reservation`. -/
def cancelReservation (reservationId : String) : BlockProgram (Option String) :=
  cleanupCall (.cancelCapacityReservation reservationId) "cancel_capacity_reservation"
    capacityReservationAlreadyGoneCodes transientAwsCodes 3

/-- `_delete_placement_group`. -/
def deletePlacementGroup (placementGroup : String) : BlockProgram (Option String) :=
  cleanupCall (.deletePlacementGroup placementGroup) "delete_placement_group"
    placementGroupAlreadyGoneCodes placementGroupRetryableDeleteCodes placementGroupDeleteAttempts

/-- Collect the errors of a cleanup which is only run when there is something to clean up. -/
def sweepIf (present : Bool) (sweep : BlockProgram (List String)) : BlockProgram (List String) :=
  if present then sweep else .done []

/-- The local variables of `main` which the final cleanup reads. -/
structure BlockLocals where
  ec2 : Bool := false
  instanceIds : List String := []
  reservationId : String := ""
  placementGroup : String := ""

def cleanup (vars : BlockLocals) : BlockProgram (List String) := do
  let instances ← sweepIf (vars.instanceIds ≠ []) (terminateInstances vars.instanceIds)
  let reservation ← sweepIf (vars.reservationId ≠ "") do
    return (← cancelReservation vars.reservationId).toList
  let group ← sweepIf (vars.placementGroup ≠ "") do
    return (← deletePlacementGroup vars.placementGroup).toList
  return instances ++ (reservation ++ group)

/-! ## Reports -/

structure ResourceCounts where
  compute : ℕ
  network : ℕ
  storage : ℕ
  deriving DecidableEq

structure BlockResource where
  resourceId : String
  resourceType : String
  tenantId : String
  topologyBlockId : String
  performanceDomain : String
  isolationBoundary : String
  deriving DecidableEq

structure TopologyBlock where
  blockId : String
  reservationId : String
  tenantId : String
  allocatedAsUnit : Bool
  partialAllocation : Bool
  homogeneous : Bool
  isolationEnforced : Bool
  requested : ResourceCounts
  allocated : ResourceCounts
  resources : List BlockResource
  deriving DecidableEq

/-- What is printed; no key `cleanup_errors` stands for an empty list. -/
structure BlockReport where
  success : Bool
  errorType : Option String := none
  error : Option String := none
  topologyBlock : Option TopologyBlock := none
  skipped : Option String := none
  cleanupErrors : List String := []
  deriving DecidableEq

/-- `_instance_owner_account`. -/
def instanceOwnerAccount (item : Instance) : Option String :=
  match item.tags.find? fun tag ↦ tag.key = some "OwnerAccount" with
  | some tag => tag.value
  | none => none

def performanceDomain (item : Instance) : String :=
  item.instanceType.getD "" ++ "/" ++ item.availabilityZone.getD "" ++ "/" ++
    item.groupName.getD ""

def buildContract (args : BlockArgs) (accountId reservationId : String)
    (instances : List Instance) : BlockReport :=
  let requested : ResourceCounts :=
    ⟨args.requestedNodes, args.requestedNetwork, args.requestedStorage⟩
  let fullComputeAllocation : Bool := instances.length = args.requestedNodes
  let allocated : ResourceCounts :=
    ⟨instances.length, if fullComputeAllocation ∧ 0 < args.requestedNetwork then 1 else 0, 0⟩
  let performanceDomains := (instances.map performanceDomain).dedup
  let domain := match performanceDomains with
    | [domain] => domain
    | _ => "mixed"
  let resource (resourceId resourceType : String) : BlockResource :=
    ⟨resourceId, resourceType, accountId, args.topologyBlockId, domain, accountId⟩
  let computeResources := instances.map fun item ↦ resource (item.instanceId.getD "") "compute"
  let networkResources :=
    if allocated.network ≠ 0 then [resource args.placementGroup "network"] else []
  let allocatedAsUnit : Bool := allocated = requested
  let homogeneous : Bool := performanceDomains.length = 1 ∧
    ∀ item ∈ instances, item.groupName = some args.placementGroup
  let isolationEnforced : Bool := instances ≠ [] ∧
    ∀ item ∈ instances, instanceOwnerAccount item = some accountId
  { success := allocatedAsUnit && homogeneous && isolationEnforced
    topologyBlock := some
      { blockId := args.topologyBlockId
        reservationId, tenantId := accountId
        allocatedAsUnit, partialAllocation := !allocatedAsUnit, homogeneous, isolationEnforced
        requested, allocated, resources := computeResources ++ networkResources } }

def capacityUnavailableCodes : List String :=
  ["InsufficientInstanceCapacity", "InsufficientReservedInstanceCapacity",
    "InstanceLimitExceeded", "MaxSpotInstanceCountExceeded"]

/-- `_is_capacity_unavailable`. -/
def isCapacityUnavailable (error : AwsError) : Bool :=
  error.code?.any (capacityUnavailableCodes.contains ·)

/-- `_classify_error`. -/
def classifyError (error : AwsError) : String × String :=
  if isCapacityUnavailable error then ("capacity_unavailable", (classifyAwsError error).2)
  else classifyAwsError error

/-- `_failure`, of the exception which ended the allocation. -/
def failure (error : AwsError) : BlockReport :=
  let (errorType, message) := classifyError error
  { success := false, errorType := some errorType, error := some message }

/-! ## Allocating -/

/-- `_validate_supported_resource_counts`. -/
def validateSupportedResourceCounts (args : BlockArgs) : Except AwsError Unit :=
  if 1 < args.requestedNetwork then
    .error (.other "ValueError"
      "requested_network must be 0 or 1 for AWS topology block allocations")
  else if args.requestedStorage ≠ 0 then
    .error (.other "ValueError" "requested_storage must be 0 for AWS topology block allocations")
  else .ok ()

/-- `_tags`. -/
def blockTags (args : BlockArgs) (accountId : String) : List Tag :=
  [⟨some "CreatedBy", some "isvtest"⟩,
    ⟨some "TestName", some "topology_block_atomic_allocation"⟩,
    ⟨some "OwnerAccount", some accountId⟩,
    ⟨some "TopologyBlock", some args.topologyBlockId⟩]

/-- `get_supported_azs`: an error reply of the service counts as no zones. -/
def getSupportedAzs (instanceType : String) : BlockProgram (List String) :=
  .call (.describeInstanceTypeOfferings instanceType) fun
    | .ok locations => .done locations
    | .error (.client _ _) => .done []
    | .error error => .raise error

/-- `candidate_availability_zones`. -/
def candidateAvailabilityZones (unicode : Unicode) (args : BlockArgs) :
    BlockProgram (List String) :=
  if unicode.strip args.availabilityZone ≠ "" then .done [unicode.strip args.availabilityZone]
  else do
    let supported ← getSupportedAzs args.instanceType
    if supported = [] then
      .raise (.other "RuntimeError" s!"No AWS availability zones offer {args.instanceType}")
    else return supported.dedup.mergeSort fun a b ↦ decide (a ≤ b)

/-- `_placement_group_arn`. -/
def placementGroupArn (placementGroup : String) : BlockProgram String := do
  let groups ← invoke (.describePlacementGroups placementGroup)
  match groups with
  | some arn :: _ => if arn ≠ "" then .done arn else unresolved
  | _ => unresolved
where
  unresolved : BlockProgram String :=
    .raise (.other "RuntimeError" s!"Could not resolve placement group ARN for {placementGroup}")

/-- `_create_capacity_reservation`, in one zone. -/
def createCapacityReservation (args : BlockArgs) (accountId availabilityZone : String) :
    BlockProgram String := do
  let arn ← placementGroupArn args.placementGroup
  invoke (.createCapacityReservation
    ⟨args.instanceType, args.instancePlatform, availabilityZone, arn, args.requestedNodes,
      blockTags args accountId⟩)

/-- The zones which are left, with the last capacity error; `single` if there is only one
candidate. -/
def reservationRounds (args : BlockArgs) (accountId : String) (single : Bool) :
    List String → Option AwsError → BlockProgram (String × String)
  | [], some error => .raise error
  | [], none =>
    .raise (.other "RuntimeError" s!"No AWS availability zones offer {args.instanceType}")
  | selectedAz :: rest, _ => do
    match ← (createCapacityReservation args accountId selectedAz).attempt with
    | .ok reservationId => return (reservationId, selectedAz)
    | .error error =>
      if single ∨ ¬ isCapacityUnavailable error then .raise error
      else reservationRounds args accountId single rest (some error)

/-- `_create_capacity_reservation_in_available_az`: the reservation, and the zone it is in. -/
def createCapacityReservationInAvailableAz (args : BlockArgs) (accountId : String)
    (candidateAzs : List String) : BlockProgram (String × String) :=
  reservationRounds args accountId (candidateAzs.length = 1) candidateAzs none

/-- `get_ubuntu_ami`: the image which was created last. -/
def getUbuntuAmi (instanceType : String) : BlockProgram (Option String) :=
  .call (.describeImages instanceType) fun
    | .ok images =>
      .done ((images.mergeSort fun a b ↦ decide (b.creationDate ≤ a.creationDate)).head?.map
        Image.imageId)
    | .error (.client _ _) => .done none
    | .error error => .raise error

/-- The AMI of the arguments, or the one which is found. -/
def imageIdOf (args : BlockArgs) : BlockProgram String := do
  let found ← selected
  match found.filter (· ≠ "") with
  | some imageId => return imageId
  | none => .raise (.other "RuntimeError" s!"Could not find an AMI for {args.instanceType}")
where
  selected : BlockProgram (Option String) :=
    if args.amiId ≠ "" then .done (some args.amiId) else getUbuntuAmi args.instanceType

/-- The first half of `_launch_instances`: the ids which `launched_instance_ids` is extended with. -/
def runInstances (args : BlockArgs) (accountId reservationId availabilityZone : String) :
    BlockProgram (List String) := do
  let imageId ← imageIdOf args
  invoke (.runInstances
    ⟨imageId, args.instanceType, args.requestedNodes, reservationId, availabilityZone,
      args.placementGroup, blockTags args accountId⟩)

/-- The second half of `_launch_instances`. -/
def awaitInstances (instanceIds : List String) : BlockProgram (List Instance) :=
  if instanceIds = [] then .done []
  else do
    let _ ← invoke (.waitInstanceRunning instanceIds)
    let described ← invoke (.describeInstances instanceIds)
    return described.filter fun item ↦ item.instanceId.any (instanceIds.contains ·)

/-- One statement of the `try` block of `main`: an error ends the block with the variables as they
are. -/
def orStop {α : Type} (vars : BlockLocals) (statement : BlockProgram α)
    (next : α → BlockProgram (BlockLocals × Except AwsError BlockReport)) :
    BlockProgram (BlockLocals × Except AwsError BlockReport) := do
  match ← statement.attempt with
  | .ok result => next result
  | .error error => return (vars, .error error)

/-- The account, and the candidate zones. -/
def accountAndZones (unicode : Unicode) (args : BlockArgs) :
    BlockProgram (String × List String) := do
  let _ ← invoke (.stsClient args.region)
  let accountId ← account
  let candidateAzs ← candidateAvailabilityZones unicode args
  return (accountId, candidateAzs)
where
  account : BlockProgram String :=
    if args.tenantId ≠ "" then .done args.tenantId else invoke .getCallerIdentity

/-- The `try` block of `main`: the variables where it ended, and the report or the exception. -/
def allocate (unicode : Unicode) (args : BlockArgs) :
    BlockProgram (BlockLocals × Except AwsError BlockReport) :=
  orStop {} (.ofExcept (validateSupportedResourceCounts args)) fun _ ↦
  orStop {} (invoke (.ec2Client args.region)) fun _ ↦
  let connected : BlockLocals := { ec2 := true }
  orStop connected (accountAndZones unicode args) fun (accountId, candidateAzs) ↦
  orStop connected
    (invoke (.createPlacementGroup args.placementGroup (blockTags args accountId))) fun _ ↦
  let grouped := { connected with placementGroup := args.placementGroup }
  orStop grouped (createCapacityReservationInAvailableAz args accountId candidateAzs)
    fun (reservationId, availabilityZone) ↦
  let reserved := { grouped with reservationId }
  orStop reserved (runInstances args accountId reservationId availabilityZone) fun instanceIds ↦
  let launched := { reserved with instanceIds }
  orStop launched (awaitInstances instanceIds) fun instances ↦
  .done (launched, .ok (buildContract args accountId reservationId instances))

/-! ## The main program -/

/-- `run_teardown`: clean up what carries the tags of the topology block. -/
def runTeardown (topologyBlockId placementGroup : String) : BlockProgram BlockReport := do
  let (instanceIds, instanceErrors) ←
    match ← (invoke (.describeTaggedInstances topologyBlockId)).attempt with
    | .ok instances => pure (activeInstanceIds instances, [])
    | .error error => pure ([],
        [s!"describe_instances for {topologyBlockId}: {error.typeName}: {error.text}"])
  let (reservationIds, reservationErrors) ←
    match ← (invoke (.describeTaggedReservations topologyBlockId)).attempt with
    | .ok reservations => pure (activeReservationIds reservations, [])
    | .error error => pure ([],
        [s!"describe_capacity_reservations for {topologyBlockId}: {error.typeName}: {error.text}"])
  let terminated ← sweepIf (instanceIds ≠ []) (terminateInstances instanceIds)
  let cancelled ← cancelAll reservationIds
  let deleted ← sweepIf (placementGroup ≠ "") do
    return (← deletePlacementGroup placementGroup).toList
  return report (instanceErrors ++ reservationErrors ++ terminated ++ cancelled ++ deleted)
where
  /-- `_tagged_active_instance_ids`. -/
  activeInstanceIds (instances : List Instance) : List String :=
    instances.filterMap fun item ↦
      if item.state = some "terminated" then none else item.instanceId.filter (· ≠ "")
  /-- `_tagged_active_reservation_ids`. -/
  activeReservationIds (reservations : List Reservation) : List String :=
    reservations.filterMap fun item ↦
      if item.state.any (["cancelled", "expired", "failed"].contains ·) then none
      else item.reservationId.filter (· ≠ "")
  cancelAll : List String → BlockProgram (List String)
    | [] => .done []
    | reservationId :: rest => do
      let error ← cancelReservation reservationId
      let errors ← cancelAll rest
      return error.toList ++ errors
  report (errors : List String) : BlockReport :=
    if errors = [] then { success := true }
    else
      { success := false
        errorType := some "cleanup_failed"
        error := some "Topology block teardown failed"
        cleanupErrors := errors }

/-- The report with the errors of the final cleanup. -/
def BlockReport.withCleanupErrors (report : BlockReport) (errors : List String) : BlockReport :=
  if errors = [] then report
  else if report.success then
    { report with
      cleanupErrors := errors
      success := false
      errorType := some "cleanup_failed"
      error := some "Topology block cleanup failed" }
  else { report with cleanupErrors := errors }

/-- `main`, after the arguments are parsed: the report which is printed. -/
def topologyBlockMain (unicode : Unicode) (args : BlockArgs) : BlockProgram BlockReport :=
  if args.teardown then
    if args.skipDestroy then
      .done { success := true, skipped := some "AWS_CAPACITY_SKIP_DESTROY set" }
    else do
      let _ ← invoke (.ec2Client args.region)
      runTeardown args.topologyBlockId args.placementGroup
  else do
    let (vars, outcome) ← allocate unicode args
    let result := match outcome with
      | .ok contract => contract
      | .error error => failure error
    if ¬ args.skipDestroy ∧ vars.ec2 then
      let errors ← cleanup vars
      return result.withCleanupErrors errors
    else return result

end IsvValidation.Aws
