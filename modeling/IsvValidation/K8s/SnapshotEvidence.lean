import IsvValidation.Capacity.AtomicAllocation
import IsvValidation.K8s.SnapshotRestore
import IsvValidation.Library.Sequence

/-!
# What a passed check of snapshots says

The check passes exactly when its commands gave the whole evidence: two bound volumes of one driver with
different handles, a ready snapshot with a ready content made of this very snapshot, a restored volume which
holds what was written before the snapshot while the source holds what was written after it, and a cleanup in
which every command succeeded.
-/

namespace IsvValidation.K8s.Snapshot

open Config Host Library Library.Program Validation

universe w

variable {World : Type w} {step : World → Command → CommandResult → World → Prop} {host : CheckHost} {params : Params}
  {world last : World} {trace : List (Exchange World fun _ : Command ↦ CommandResult)}

/-! ## Replies -/

abbrev Script := List (Cue Command CommandResult)

/-- A command which succeeds. -/
def ran (command : Command) : Cue Command CommandResult := ⟨command, fun reply ↦ reply.exitCode = 0⟩

/-- A command which prints one object. -/
def gave (host : CheckHost) (command : Command) (object : Json) : Cue Command CommandResult :=
  ⟨command, fun reply ↦ reply.exitCode = 0 ∧ host.loads reply.stdout = .ok object ∧ object.isObject = true⟩

/-- A command which prints a text, apart from the blanks around it. -/
def printed (host : CheckHost) (command : Command) (text : String) : Cue Command CommandResult :=
  ⟨command, fun reply ↦ reply.exitCode = 0 ∧ host.data.strip reply.stdout = text⟩

theorem commandOutput_ok {command : Command} {result : CommandResult} {text : String} :
    commandOutput host command result = .ok text ↔ result.exitCode = 0 ∧ result.stdout = text := by
  by_cases hcode : result.exitCode = 0 <;> simp [commandOutput, hcode]

theorem objectOutput_ok {resource : String} {command : Command} {result : CommandResult} {object : Json} :
    objectOutput host resource command result = .ok object ↔
      result.exitCode = 0 ∧ host.loads result.stdout = .ok object ∧ object.isObject = true := by
  simp only [objectOutput, bind_eq_ok, commandOutput_ok]
  constructor
  · rintro ⟨_, ⟨hcode, rfl⟩, payload, hloads, hobject⟩
    split_ifs at hobject with hshape
    cases hobject
    exact ⟨hcode, hloads, hshape⟩
  · rintro ⟨hcode, hloads, hobject⟩
    exact ⟨_, ⟨hcode, rfl⟩, object, hloads, by rw [if_pos hobject]; rfl⟩

theorem applied_ok {what : String} {result : CommandResult} :
    applied host what result = .ok () ↔ result.exitCode = 0 := by
  by_cases hcode : result.exitCode = 0 <;> simp [applied, hcode]

theorem require_ok {condition : Bool} {message : String} {result : Unit} :
    require condition message = .ok result ↔ condition = true := by
  cases condition <;> simp [require]

theorem getObject_returns {resource name : String} {ns : Option String} :
    (getObject host resource name ns).Returns step fun object script ↦
      script = [gave host (.get resource name ns) object] := by
  refine (Returns.demand _ _).congr fun object script ↦ ?_
  simp only [objectOutput_ok, gave]

theorem getNamed_returns {resource : String} {name : Json} :
    (getNamed host resource name).Returns step fun object script ↦
      ∃ text, name = .str text ∧ script = [gave host (.get resource text none) object] := by
  cases name with
  | str text => exact getObject_returns.congr fun object script ↦ by simp
  | _ => exact (Returns.ofExcept (.error _)).congr fun object script ↦ by simp

theorem create_returns {ns what : String} {manifest : Manifest} :
    (create host ns what manifest).Returns step fun _ script ↦ script = [ran (.apply ns manifest)] := by
  refine (Returns.demand _ _).congr fun made script ↦ ?_
  cases made
  simp only [applied_ok, ran]

theorem execIn_returns {ns pod : String} {argv : List String} :
    (execIn host ns pod argv).Returns step fun text script ↦ script = [printed host (.exec ns pod argv) text] where
  follows h := by
    obtain ⟨reply, stdout, middle, rest, rfl, hread, hdone⟩ := Execution.demand_bind_ok h
    obtain ⟨rfl, rfl, htext⟩ := Execution.done_iff.mp hdone
    obtain ⟨hcode, rfl⟩ := commandOutput_ok.mp hread
    exact ⟨_, rfl, .cons rfl ⟨hcode, (Except.ok.inj htext).symm⟩ (Follows.nil_iff.mpr rfl)⟩
  plays := by
    rintro text _ rfl
    refine ⟨_, [], rfl, fun reply hreply ↦ ?_⟩
    simp only [commandOutput_ok.mpr ⟨hreply.1, rfl⟩]
    exact ⟨rfl, congrArg Except.ok hreply.2.symm⟩

theorem runCommand_then {α : Type} {command : Command} {next : Run PyError α} {scripts : α → Script → Prop}
    (h : next.Returns step scripts) :
    ((runCommand host command).bind fun _ ↦ next).Returns step fun result script ↦
      ∃ rest, scripts result rest ∧ script = ran command :: rest := by
  refine h.demand_then.congr fun result script ↦ ?_
  simp only [commandOutput_ok, exists_and_left, exists_eq', and_true, ran]

theorem execIn_then {α : Type} {ns pod : String} {argv : List String} {next : Run PyError α}
    {scripts : α → Script → Prop} (h : next.Returns step scripts) :
    ((execIn host ns pod argv).bind fun _ ↦ next).Returns step fun result script ↦
      ∃ rest, scripts result rest ∧ script = ran (.exec ns pod argv) :: rest := by
  rw [execIn, bind_eq, bind_assoc]
  exact runCommand_then h

/-! ## Requirements -/

/-- Whether the default is empty or missing does not matter where something is found. -/
theorem field_empty {data value : Json} {key : String} (htruthy : value.truthy = true) :
    field data key (.str "") = .ok value ↔ field data key = .ok value := by
  simp only [field, bind_eq_ok]
  refine exists_congr fun found ↦ and_congr_right fun _ ↦ ?_
  cases found with
  | some found => rfl
  | none =>
    have hempty : value ≠ .str "" := by rintro rfl; cases htruthy
    have hnull : value ≠ .null := by rintro rfl; cases htruthy
    exact iff_of_false (fun h ↦ hempty (Except.ok.inj h).symm) fun h ↦ hnull (Except.ok.inj h).symm

theorem isTrue_iff {value : Json} : isTrue value = true ↔ value = .bool true := by
  cases value <;> simp [isTrue]

/-- What is found of a claim which a pod has mounted. -/
structure Mounted where
  claim : Json
  volumeName : String
  volume : Json
  handle : Json

/-- The claim is bound to a volume of the driver, which has a handle. -/
structure Mounted.Sound (driver : Json) (mounted : Mounted) : Prop where
  bound : path mounted.claim ["status", "phase"] = .ok (.str "Bound")
  volume : path mounted.claim ["spec", "volumeName"] = .ok (.str mounted.volumeName)
  named : mounted.volumeName ≠ ""
  driven : ∃ found, path mounted.volume ["spec", "csi", "driver"] = .ok found ∧ same found driver = true
  handle : path mounted.volume ["spec", "csi", "volumeHandle"] = .ok mounted.handle
  held : mounted.handle.truthy = true

theorem boundVolume_ok {claim name : Json} : boundVolume claim = .ok name ↔
    path claim ["status", "phase"] = .ok (.str "Bound") ∧ path claim ["spec", "volumeName"] = .ok name ∧
      name.truthy = true := by
  simp only [boundVolume, bind_eq_ok, require_ok, Bool.and_eq_true, Capacity.same_str]
  constructor
  · rintro ⟨found, hname, phase, hphase, -, ⟨rfl, htruthy⟩, hfound⟩
    cases hfound
    exact ⟨hphase, hname, htruthy⟩
  · rintro ⟨hphase, hname, htruthy⟩
    exact ⟨name, hname, .str "Bound", hphase, (), ⟨rfl, htruthy⟩, rfl⟩

theorem volumeHandle_ok {driver volume handle : Json} : volumeHandle driver volume = .ok handle ↔
    (∃ found, path volume ["spec", "csi", "driver"] = .ok found ∧ same found driver = true) ∧
      path volume ["spec", "csi", "volumeHandle"] = .ok handle ∧ handle.truthy = true := by
  simp only [volumeHandle, path, bind_eq_ok, require_ok, Bool.and_eq_true]
  constructor
  · rintro ⟨spec, hspec, csi, hcsi, value, hvalue, found, hfound, -, ⟨hdriver, htruthy⟩, heq⟩
    cases heq
    exact ⟨⟨found, ⟨spec, hspec, csi, hcsi, hfound⟩, hdriver⟩, ⟨spec, hspec, csi, hcsi, hvalue⟩, htruthy⟩
  · rintro ⟨⟨found, ⟨spec, hspec, csi, hcsi, hfound⟩, hdriver⟩, ⟨_, hspec', _, hcsi', hhandle⟩, htruthy⟩
    obtain rfl := Except.ok.inj (hspec.symm.trans hspec')
    obtain rfl := Except.ok.inj (hcsi.symm.trans hcsi')
    exact ⟨spec, hspec, csi, hcsi, handle, hhandle, found, hfound, (), ⟨hdriver, htruthy⟩, rfl⟩

/-- The classes of one driver, which delete what they make. -/
structure OneDriver (storage snapshot driver : Json) : Prop where
  provisioner : field storage "provisioner" = .ok driver
  known : driver.truthy = true
  driven : ∃ found, field snapshot "driver" = .ok found ∧ same found driver = true
  reclaimed : field storage "reclaimPolicy" (.str "Delete") = .ok (.str "Delete")
  deleted : field snapshot "deletionPolicy" = .ok (.str "Delete")

theorem classesDriver_ok {storage snapshot driver : Json} :
    classesDriver storage snapshot = .ok driver ↔ OneDriver storage snapshot driver := by
  simp only [classesDriver, bind_eq_ok, require_ok, Bool.and_eq_true, Capacity.same_str]
  constructor
  · rintro ⟨value, hvalue, found, hfound, -, ⟨htruthy, hsame⟩, reclaim, hreclaim, deletion, hdeletion, -,
      ⟨rfl, rfl⟩, heq⟩
    cases heq
    exact ⟨(field_empty htruthy).mp hvalue, htruthy, ⟨found, hfound, hsame⟩, hreclaim, hdeletion⟩
  · rintro ⟨hprovisioner, htruthy, ⟨found, hfound, hsame⟩, hreclaim, hdeletion⟩
    exact ⟨driver, (field_empty htruthy).mpr hprovisioner, found, hfound, (), ⟨htruthy, hsame⟩, _, hreclaim, _,
      hdeletion, (), ⟨rfl, rfl⟩, rfl⟩

/-- A snapshot which is ready, without an error, and bound to a content. -/
structure Ready (snapshot : Json) (contentName : String) : Prop where
  ready : path snapshot ["status", "readyToUse"] = .ok (.bool true)
  bound : path snapshot ["status", "boundVolumeSnapshotContentName"] = .ok (.str contentName)
  named : contentName ≠ ""
  correct : ∃ error, path snapshot ["status", "error"] = .ok error ∧ error.truthy = false

theorem ready_iff {snapshot : Json} {contentName : String} :
    (∃ status, boundContent snapshot = .ok (status, .str contentName) ∧
      requireReady status (.str contentName) = .ok ()) ↔ Ready snapshot contentName := by
  simp only [boundContent, requireReady, bind_eq_ok, require_ok, Bool.and_eq_true, isTrue_iff, Bool.not_eq_true']
  constructor
  · rintro ⟨status, ⟨_, hstatus, name, hname, heq⟩, ready, hready, error, herror, ⟨rfl, hnamed⟩, hcorrect⟩
    cases heq
    have hne : contentName ≠ "" := by rintro rfl; cases hnamed
    exact ⟨bind_eq_ok.mpr ⟨status, hstatus, hready⟩,
      bind_eq_ok.mpr ⟨status, hstatus, (field_empty hnamed).mp hname⟩, hne,
      error, bind_eq_ok.mpr ⟨status, hstatus, herror⟩, hcorrect⟩
  · rintro ⟨hready, hbound, hne, error, herror, hcorrect⟩
    obtain ⟨status, hstatus, hready⟩ := bind_eq_ok.mp hready
    obtain ⟨_, hagain, hbound⟩ := bind_eq_ok.mp hbound
    obtain rfl := Except.ok.inj (hstatus.symm.trans hagain)
    obtain ⟨_, hagain, herror⟩ := bind_eq_ok.mp herror
    obtain rfl := Except.ok.inj (hstatus.symm.trans hagain)
    have hnamed : (Json.str contentName).truthy = true := by simp [Json.truthy, hne]
    exact ⟨status, ⟨status, hstatus, _, (field_empty hnamed).mpr hbound, rfl⟩, _, hready, error, herror,
      ⟨rfl, hnamed⟩, hcorrect⟩

/-- The ready content of the very snapshot, of the driver. -/
structure Content (driver snapshot content : Json) : Prop where
  driven : ∃ found, path content ["spec", "driver"] = .ok found ∧ same found driver = true
  own : ∃ metadata uid claimed, snapshot.item "metadata" = .ok metadata ∧ metadata.item "uid" = .ok uid ∧
    path content ["spec", "volumeSnapshotRef", "uid"] = .ok claimed ∧ same claimed uid = true
  ready : path content ["status", "readyToUse"] = .ok (.bool true)
  handle : ∃ handle, path content ["status", "snapshotHandle"] = .ok handle ∧ handle.truthy = true

theorem requireContent_ok {driver snapshot content : Json} {result : Unit} :
    requireContent driver snapshot content = .ok result ↔ Content driver snapshot content := by
  simp only [requireContent, path, bind_eq_ok, require_ok, isTrue_iff]
  constructor
  · rintro ⟨spec, hspec, status, hstatus, driven, hdriven, -, hsame, claimed, ⟨reference, hreference, hclaimed⟩,
      metadata, hmetadata, uid, huid, -, hown, ready, hready, -, rfl, handle, hhandle, htruthy⟩
    exact ⟨⟨driven, bind_eq_ok.mpr ⟨spec, hspec, hdriven⟩, hsame⟩,
      ⟨metadata, uid, claimed, hmetadata, huid,
        bind_eq_ok.mpr ⟨spec, hspec, bind_eq_ok.mpr ⟨reference, hreference, hclaimed⟩⟩, hown⟩,
      bind_eq_ok.mpr ⟨status, hstatus, hready⟩, handle, bind_eq_ok.mpr ⟨status, hstatus, hhandle⟩, htruthy⟩
  · rintro ⟨⟨driven, hdriven, hsame⟩, ⟨metadata, uid, claimed, hmetadata, huid, hclaimed, hown⟩, hready,
      handle, hhandle, htruthy⟩
    obtain ⟨spec, hspec, hdriven⟩ := bind_eq_ok.mp hdriven
    obtain ⟨_, hagain, hclaimed⟩ := bind_eq_ok.mp hclaimed
    obtain rfl := Except.ok.inj (hspec.symm.trans hagain)
    obtain ⟨status, hstatus, hready⟩ := bind_eq_ok.mp hready
    obtain ⟨_, hagain, hhandle⟩ := bind_eq_ok.mp hhandle
    obtain rfl := Except.ok.inj (hstatus.symm.trans hagain)
    exact ⟨spec, hspec, status, hstatus, driven, hdriven, (), hsame, claimed, bind_eq_ok.mp hclaimed, metadata,
      hmetadata, uid, huid, (), hown, _, hready, (), rfl, handle, hhandle, htruthy⟩

/-! ## Parts -/

/-- What the commands of a mount give. -/
def Mounted.steps (host : CheckHost) (params : Params) (name : String) (mounted : Mounted) : Script :=
  [ran (.apply params.ns (.pod name name)), ran (.waitReady params.ns name params.seconds),
    gave host (.get "pvc" name (some params.ns)) mounted.claim,
    gave host (.get "pv" mounted.volumeName none) mounted.volume]

theorem mount_returns {driver : Json} {name : String} :
    (mount host params driver name).Returns step fun handle script ↦
      ∃ mounted : Mounted, mounted.Sound driver ∧ mounted.handle = handle ∧
        script = mounted.steps host params name := by
  refine (create_returns.bind fun _ ↦ runCommand_then (getObject_returns.bind fun claim ↦
    (Returns.ofExcept _).bind fun name ↦ getNamed_returns.bind fun volume ↦ .ofExcept _)).congr fun handle script ↦ ?_
  constructor
  · rintro ⟨-, _, _, rfl, ⟨_, ⟨claim, _, _, rfl, ⟨volumeName, _, _, ⟨rfl, hname⟩, ⟨volume, _, _, ⟨text, rfl, rfl⟩,
      ⟨rfl, hhandle⟩, rfl⟩, rfl⟩, rfl⟩, rfl⟩, rfl⟩
    obtain ⟨hphase, hname, hnamed⟩ := boundVolume_ok.mp hname
    obtain ⟨hdriven, hhandle, hheld⟩ := volumeHandle_ok.mp hhandle
    exact ⟨⟨claim, text, volume, handle⟩,
      ⟨hphase, hname, (by rintro rfl; cases hnamed), hdriven, hhandle, hheld⟩, rfl, rfl⟩
  · rintro ⟨mounted, hsound, rfl, rfl⟩
    have hnamed : (Json.str mounted.volumeName).truthy = true := by simp [Json.truthy, hsound.named]
    exact ⟨(), _, _, rfl, ⟨_, ⟨mounted.claim, _, _, rfl, ⟨_, _, _,
      ⟨rfl, boundVolume_ok.mpr ⟨hsound.bound, hsound.volume, hnamed⟩⟩, ⟨mounted.volume, _, _, ⟨_, rfl, rfl⟩,
        ⟨rfl, volumeHandle_ok.mpr ⟨hsound.driven, hsound.handle, hsound.held⟩⟩, rfl⟩, rfl⟩, rfl⟩, rfl⟩, rfl⟩

/-- All which a run is given. -/
structure Evidence where
  storage : Json
  snapshotClass : Json
  driver : Json
  source : Mounted
  snapshot : Json
  contentName : String
  content : Json
  restored : Mounted

/-- The evidence shows that the snapshot was restored into a volume of its own. -/
structure Evidence.Sound (evidence : Evidence) : Prop where
  classes : OneDriver evidence.storage evidence.snapshotClass evidence.driver
  source : evidence.source.Sound evidence.driver
  ready : Ready evidence.snapshot evidence.contentName
  content : Content evidence.driver evidence.snapshot evidence.content
  restored : evidence.restored.Sound evidence.driver
  distinct : same evidence.restored.handle evidence.source.handle = false

section Steps

variable (host : CheckHost) (params : Params) (evidence : Evidence)

def Evidence.prepared : Script :=
  [gave host (.get "storageclass" params.storageClass none) evidence.storage,
    gave host (.get "volumesnapshotclass" params.snapshotClass none) evidence.snapshotClass,
    ran (.createNamespace params.ns)]

def Evidence.seeded : Script :=
  ran (.apply params.ns (claimOf params "source" none)) :: evidence.source.steps host params "source" ++
    [ran (.exec params.ns "source" (writeCanary params.canary)),
      ran (.apply params.ns (.snapshot "snapshot" params.snapshotClass "source"))]

def Evidence.taken : Script :=
  [ran (.waitSnapshot params.ns "snapshot" params.seconds),
    gave host (.get "volumesnapshot" "snapshot" (some params.ns)) evidence.snapshot,
    gave host (.get "volumesnapshotcontent" evidence.contentName none) evidence.content]

/-- The restored volume holds what the source held, and the source what it holds since. -/
def Evidence.compared : Script :=
  ran (.exec params.ns "source" (writeCanary changed)) ::
    ran (.apply params.ns (claimOf params "restored" (some "snapshot"))) ::
    evidence.restored.steps host params "restored" ++
    [printed host (.exec params.ns "restored" readCanary) params.canary,
      printed host (.exec params.ns "source" readCanary) changed]

/-- What may hold on to the snapshot, the snapshot, its content, and the namespace. -/
def Evidence.removed : Script :=
  let seconds := max params.seconds 120
  [ran (.delete "pod" "restored" params.ns seconds), ran (.delete "pvc" "restored" params.ns seconds),
    ran (.delete "volumesnapshot" "snapshot" params.ns seconds), ran (.waitGone evidence.contentName seconds),
    ran (.deleteNamespace params.ns seconds)]

def Evidence.probed : Script :=
  evidence.prepared host params ++ evidence.seeded host params ++ evidence.taken host params ++
    evidence.compared host params

/-- All the commands of a run which passes, with what they give. -/
def Evidence.steps : Script := evidence.probed host params ++ evidence.removed params

end Steps

theorem prepare_returns : (prepare host params).Returns step fun driver script ↦
    ∃ storage snapshot, OneDriver storage snapshot driver ∧ script =
      [gave host (.get "storageclass" params.storageClass none) storage,
        gave host (.get "volumesnapshotclass" params.snapshotClass none) snapshot,
        ran (.createNamespace params.ns)] := by
  refine (getObject_returns.bind fun storage ↦ getObject_returns.bind fun snapshot ↦ (Returns.ofExcept _).bind
    fun driver ↦ runCommand_then (Returns.done driver)).congr fun driver script ↦ ?_
  constructor
  · rintro ⟨storage, _, _, rfl, ⟨snapshot, _, _, rfl, ⟨_, _, _, ⟨rfl, hclasses⟩, ⟨_, ⟨rfl, rfl⟩, rfl⟩, rfl⟩, rfl⟩, rfl⟩
    exact ⟨storage, snapshot, classesDriver_ok.mp hclasses, rfl⟩
  · rintro ⟨storage, snapshot, hclasses, rfl⟩
    exact ⟨storage, _, _, rfl, ⟨snapshot, _, _, rfl, ⟨driver, _, _, ⟨rfl, classesDriver_ok.mpr hclasses⟩,
      ⟨_, ⟨rfl, rfl⟩, rfl⟩, rfl⟩, rfl⟩, rfl⟩

theorem seed_returns {driver : Json} : (seed host params driver).Returns step fun handle script ↦
    ∃ source : Mounted, source.Sound driver ∧ source.handle = handle ∧ script =
      ran (.apply params.ns (claimOf params "source" none)) :: source.steps host params "source" ++
        [ran (.exec params.ns "source" (writeCanary params.canary)),
          ran (.apply params.ns (.snapshot "snapshot" params.snapshotClass "source"))] := by
  refine (create_returns.bind fun _ ↦ mount_returns.bind fun handle ↦ execIn_then (create_returns.bind
    fun _ ↦ Returns.done handle)).congr fun handle script ↦ ?_
  constructor
  · rintro ⟨-, _, _, rfl, ⟨_, _, _, ⟨source, hsource, rfl, rfl⟩, ⟨_, ⟨-, _, _, rfl, ⟨rfl, rfl⟩, rfl⟩, rfl⟩, rfl⟩, rfl⟩
    exact ⟨source, hsource, rfl, rfl⟩
  · rintro ⟨source, hsource, rfl, rfl⟩
    exact ⟨(), _, _, rfl, ⟨_, _, _, ⟨source, hsource, rfl, rfl⟩, ⟨_, ⟨(), _, _, rfl, ⟨rfl, rfl⟩, rfl⟩, rfl⟩, rfl⟩, rfl⟩

theorem readSnapshot_returns : (readSnapshot host params).Returns step fun snapshot script ↦ script =
    [ran (.waitSnapshot params.ns "snapshot" params.seconds),
      gave host (.get "volumesnapshot" "snapshot" (some params.ns)) snapshot] := by
  refine (runCommand_then getObject_returns).congr fun snapshot script ↦ ?_
  simp

theorem checkSnapshot_returns {driver snapshot status contentName : Json} :
    (checkSnapshot host driver snapshot status contentName).Returns step fun _ script ↦
      ∃ name content, contentName = .str name ∧ requireReady status contentName = .ok () ∧
        Content driver snapshot content ∧ script = [gave host (.get "volumesnapshotcontent" name none) content] := by
  refine ((Returns.ofExcept _).bind fun _ ↦ getNamed_returns.bind fun content ↦ .ofExcept _).congr fun _ script ↦ ?_
  constructor
  · rintro ⟨_, _, _, ⟨rfl, hready⟩, ⟨content, _, _, ⟨name, rfl, rfl⟩, ⟨rfl, hcontent⟩, rfl⟩, rfl⟩
    exact ⟨name, content, rfl, hready, requireContent_ok.mp hcontent, rfl⟩
  · rintro ⟨name, content, rfl, hready, hcontent, rfl⟩
    exact ⟨(), _, _, ⟨rfl, hready⟩, ⟨content, _, _, ⟨name, rfl, rfl⟩, ⟨rfl, requireContent_ok.mpr hcontent⟩, rfl⟩, rfl⟩

theorem restore_returns {driver handle : Json} : (restore host params driver handle).Returns step fun _ script ↦
    ∃ restored : Mounted, restored.Sound driver ∧ same restored.handle handle = false ∧ script =
      ran (.exec params.ns "source" (writeCanary changed)) ::
        ran (.apply params.ns (claimOf params "restored" (some "snapshot"))) ::
        restored.steps host params "restored" ++
        [printed host (.exec params.ns "restored" readCanary) params.canary,
          printed host (.exec params.ns "source" readCanary) changed] := by
  refine (execIn_then (create_returns.bind fun _ ↦ mount_returns.bind fun handle ↦ (Returns.ofExcept _).bind
    fun _ ↦ execIn_returns.bind fun restored ↦ (Returns.ofExcept _).bind fun _ ↦ execIn_returns.bind fun source ↦
      .ofExcept _)).congr fun _ script ↦ ?_
  simp only [require_ok]
  constructor
  · rintro ⟨_, ⟨-, _, _, rfl, ⟨_, _, _, ⟨restored, hrestored, rfl, rfl⟩, ⟨-, _, _, ⟨rfl, hdistinct⟩,
      ⟨_, _, _, rfl, ⟨-, _, _, ⟨rfl, hcanary⟩, ⟨_, _, _, rfl, ⟨rfl, hchanged⟩, rfl⟩, rfl⟩, rfl⟩, rfl⟩, rfl⟩, rfl⟩, rfl⟩
    obtain rfl := of_decide_eq_true hcanary
    obtain rfl := of_decide_eq_true hchanged
    exact ⟨restored, hrestored, by simpa using hdistinct, rfl⟩
  · rintro ⟨restored, hrestored, hdistinct, rfl⟩
    exact ⟨_, ⟨(), _, _, rfl, ⟨_, _, _, ⟨restored, hrestored, rfl, rfl⟩, ⟨(), _, _, ⟨rfl, by simp [hdistinct]⟩,
      ⟨_, _, _, rfl, ⟨(), _, _, ⟨rfl, by simp⟩, ⟨_, _, _, rfl, ⟨rfl, by simp⟩, rfl⟩, rfl⟩, rfl⟩, rfl⟩, rfl⟩, rfl⟩, rfl⟩

/-! ## The whole check -/

def passedReport : Report :=
  ((({} : Report).reportSubtest "snapshot-ready" true "CSI snapshot and bound content are ready").reportSubtest
    "snapshot-data-restored" true "Distinct volume restored original data").setPassed
      "CSI snapshot restored point-in-time data; source remains independently modified"

/-- What the body leaves when nothing was wrong. -/
def Evidence.progress (evidence : Evidence) : Progress where
  created := true
  snapshotCreated := true
  contentName := .str evidence.contentName
  report := passedReport

theorem body_returns : (body host params).Returns step fun progress script ↦
    ∃ evidence : Evidence, evidence.Sound ∧ progress = evidence.progress ∧ script = evidence.probed host params := by
  refine ((prepare_returns.mapError _).bind fun driver ↦ (seed_returns.mapError _).bind fun handle ↦
    (readSnapshot_returns.mapError _).bind fun snapshot ↦ ((Returns.ofExcept _).mapError _).bind fun bound ↦
      (checkSnapshot_returns.mapError _).bind fun _ ↦ (restore_returns.mapError _).bind fun _ ↦
        Returns.done _).congr fun progress script ↦ ?_
  constructor
  · rintro ⟨driver, _, _, ⟨storage, snapshotClass, hclasses, rfl⟩, ⟨_, _, _, ⟨source, hsource, rfl, rfl⟩,
      ⟨snapshot, _, _, rfl, ⟨⟨status, _⟩, _, _, ⟨rfl, hbound⟩, ⟨-, _, _, ⟨name, content, rfl, hready, hcontent, rfl⟩,
        ⟨-, _, _, ⟨restored, hrestored, hdistinct, rfl⟩, ⟨rfl, rfl⟩, rfl⟩, rfl⟩, rfl⟩, rfl⟩, rfl⟩, rfl⟩
    refine ⟨⟨storage, snapshotClass, driver, source, snapshot, name, content, restored⟩,
      ⟨hclasses, hsource, ready_iff.mp ⟨status, hbound, hready⟩, hcontent, hrestored, hdistinct⟩, rfl, ?_⟩
    simp [Evidence.probed, Evidence.prepared, Evidence.seeded, Evidence.taken, Evidence.compared]
  · rintro ⟨evidence, hsound, rfl, rfl⟩
    obtain ⟨status, hbound, hready⟩ := ready_iff.mpr hsound.ready
    refine ⟨evidence.driver, _, _, ⟨evidence.storage, evidence.snapshotClass, hsound.classes, rfl⟩, ⟨_, _, _,
      ⟨evidence.source, hsound.source, rfl, rfl⟩, ⟨evidence.snapshot, _, _, rfl, ⟨(status, .str evidence.contentName),
        _, _, ⟨rfl, hbound⟩, ⟨(), _, _, ⟨evidence.contentName, evidence.content, rfl, hready, hsound.content, rfl⟩,
          ⟨(), _, _, ⟨evidence.restored, hsound.restored, hsound.distinct, rfl⟩, ⟨rfl, rfl⟩, rfl⟩, rfl⟩, rfl⟩,
        rfl⟩, rfl⟩, ?_⟩
    simp [Evidence.probed, Evidence.prepared, Evidence.seeded, Evidence.taken, Evidence.compared]

theorem removeRestored_returns {evidence : Evidence} (hnamed : evidence.contentName ≠ "") (seconds : ℤ) :
    (removeRestored host params evidence.progress seconds).Returns step fun _ script ↦ script =
      [ran (.delete "pod" "restored" params.ns seconds), ran (.delete "pvc" "restored" params.ns seconds),
        ran (.delete "volumesnapshot" "snapshot" params.ns seconds), ran (.waitGone evidence.contentName seconds)] := by
  have htruthy : (Json.str evidence.contentName).truthy = true := by simp [Json.truthy, hnamed]
  have htext : host.strOf (Json.str evidence.contentName).toValue = evidence.contentName := rfl
  simp only [removeRestored, Evidence.progress, htruthy, htext, if_true, bind_eq, pure_eq]
  refine (runCommand_then (runCommand_then (runCommand_then (runCommand_then (Returns.done ()))))).congr fun _ script ↦ ?_
  simp

@[simp] theorem passed_cleanupFailed {report : Report} {what : String} {error : PyError} :
    (cleanupFailed host report what error).passed = false := rfl

/-- A report which passes after the cleanup passed before, and nothing went wrong in the cleanup. -/
theorem cleanup_spec {progress : Progress} {outcome : Except PyError Report}
    (h : Execution step world (cleanup host params progress) trace last outcome) :
    ∃ report, outcome = .ok report ∧ (report.passed = true → progress.report.passed = true ∧
      (progress.created = true → ∃ middle first second, trace = first ++ second ∧
        Execution step world (removeRestored host params progress (max params.seconds 120)) first middle (.ok ()) ∧
        ∃ stdout, Execution step middle (runCommand host (.deleteNamespace params.ns (max params.seconds 120))) second last
          (.ok stdout))) := by
  unfold cleanup at h
  split_ifs at h with hcreated
  · obtain ⟨rfl, rfl, rfl⟩ := Execution.done_iff.mp h
    exact ⟨_, rfl, fun hpassed ↦ ⟨hpassed, fun hmade ↦ by simp [hmade] at hcreated⟩⟩
  · obtain ⟨first, removed, middle, rest, rfl, hremove, hnext⟩ := Execution.bind_attempt h
    obtain ⟨second, gone, _, third, rfl, hdelete, hend⟩ := Execution.bind_attempt hnext
    obtain ⟨rfl, rfl, rfl⟩ := Execution.done_iff.mp hend
    refine ⟨_, rfl, ?_⟩
    cases gone with
    | error error => simp
    | ok stdout =>
      cases removed with
      | error error => simp
      | ok removed => exact fun hpassed ↦ ⟨hpassed, fun _ ↦ ⟨_, first, second, by simp, hremove, stdout, hdelete⟩⟩

/-- The cleanup which follows a body that passed. -/
theorem cleanup_follows {evidence : Evidence} (hnamed : evidence.contentName ≠ "") {report : Report}
    (h : Execution step world (cleanup host params evidence.progress) trace last (.ok report))
    (hpassed : report.passed = true) : Follows (evidence.removed params) trace := by
  obtain ⟨_, heq, hreport⟩ := cleanup_spec h
  cases heq
  obtain ⟨middle, first, second, rfl, hremove, stdout, hdelete⟩ := (hreport hpassed).2 rfl
  obtain ⟨_, rfl, hfirst⟩ := (removeRestored_returns hnamed _).follows hremove
  obtain ⟨reply, rfl, -, hread⟩ := Execution.demand_iff.mp hdelete
  exact hfirst.append (.cons rfl (commandOutput_ok.mp hread.symm).1 (Follows.nil_iff.mpr rfl))

theorem cleanup_plays {evidence : Evidence} (hnamed : evidence.contentName ≠ "") :
    (cleanup host params evidence.progress).Plays (evidence.removed params) (.ok evidence.progress.report) := by
  have hremove : (removeRestored host params evidence.progress (max params.seconds 120)).Plays _ (.ok ()) :=
    (@removeRestored_returns Unit (fun _ _ _ _ ↦ True) _ _ evidence hnamed _).plays rfl
  refine hremove.attempt.bind ⟨_, [], rfl, fun reply hreply ↦ ?_⟩
  simp only [commandOutput_ok.mpr ⟨hreply, rfl⟩]
  exact .done _

theorem runWith_follows {outcome : Except PyError Ended}
    (h : Execution step world (runWith host params) trace last outcome) :
    ∃ ended, outcome = .ok ended ∧ (ended.raised = none → ended.report.passed = true →
      ∃ evidence : Evidence, evidence.Sound ∧ Follows (evidence.steps host params) trace) := by
  obtain ⟨first, tried, middle, second, rfl, hbody, hnext⟩ := Execution.bind_attempt h
  cases tried with
  | ok progress =>
    obtain ⟨_, ⟨evidence, hsound, rfl, rfl⟩, hprobed⟩ := body_returns.follows hbody
    obtain ⟨error, rfl, hcleanup⟩ | ⟨third, report, _, fourth, rfl, hcleanup, hend⟩ := Execution.bind_iff.mp hnext
    · obtain ⟨_, heq, -⟩ := cleanup_spec hcleanup
      cases heq
    · obtain ⟨rfl, rfl, rfl⟩ := Execution.done_iff.mp hend
      refine ⟨_, rfl, fun _ hpassed ↦ ⟨evidence, hsound, hprobed.append ?_⟩⟩
      rw [List.append_nil]
      exact cleanup_follows hsound.ready.named hcleanup hpassed
  | error stopped =>
    obtain ⟨progress, error⟩ := stopped
    simp only at hnext
    split_ifs at hnext with hcaught
    · obtain ⟨raised, rfl, hcleanup⟩ | ⟨third, report, _, fourth, rfl, hcleanup, hend⟩ := Execution.bind_iff.mp hnext
      · obtain ⟨_, heq, -⟩ := cleanup_spec hcleanup
        cases heq
      · obtain ⟨rfl, rfl, rfl⟩ := Execution.done_iff.mp hend
        obtain ⟨_, heq, hreport⟩ := cleanup_spec hcleanup
        cases heq
        exact ⟨_, rfl, fun _ hpassed ↦ absurd (hreport hpassed).1 (by simp)⟩
    · obtain ⟨raised, rfl, hcleanup⟩ | ⟨third, report, _, fourth, rfl, hcleanup, hend⟩ := Execution.bind_iff.mp hnext
      · obtain ⟨_, heq, -⟩ := cleanup_spec hcleanup
        cases heq
      · obtain ⟨rfl, rfl, rfl⟩ := Execution.done_iff.mp hend
        exact ⟨_, rfl, fun hraised ↦ by cases hraised⟩

theorem runWith_plays {evidence : Evidence} (hsound : evidence.Sound) :
    (runWith host params).Plays (evidence.steps host params) (.ok { report := evidence.progress.report }) := by
  have hbody := (@body_returns Unit (fun _ _ _ _ ↦ True) host params).plays ⟨evidence, hsound, rfl, rfl⟩
  refine hbody.attempt.bind ?_
  rw [← List.append_nil (evidence.removed params)]
  exact (cleanup_plays hsound.ready.named).bind (.done _)

theorem execute_skipped {setting : Setting} {config output : Items} {outcome : Except PyError Outcome}
    (hskipped : skippedOutput config = some output)
    (h : Execution step world (execute host setting config) trace last outcome) :
    ∃ reason, outcome = .ok (.skipped reason) := by
  simp only [execute, hskipped] at h
  obtain ⟨-, -, houtcome⟩ := Execution.done_iff.mp h
  exact ⟨_, houtcome⟩

theorem execute_unstarted {setting : Setting} {config : Items} {outcome : Except PyError Outcome} {stop : Stop}
    (hskipped : skippedOutput config = none) (hparams : paramsOf host setting config = .error stop)
    (h : Execution step world (execute host setting config) trace last outcome) :
    ∃ found, outcome = .ok found ∧ ¬ found.Passed := by
  simp only [execute, hskipped, hparams] at h
  cases stop with
  | skipped reason =>
    obtain ⟨-, -, houtcome⟩ := Execution.done_iff.mp h
    exact ⟨_, houtcome, id⟩
  | failed error =>
    obtain ⟨-, -, houtcome⟩ := Execution.done_iff.mp h
    exact ⟨_, houtcome, Bool.false_ne_true⟩
  | raised error =>
    obtain ⟨-, -, houtcome⟩ := Execution.done_iff.mp h
    exact ⟨_, houtcome, Bool.false_ne_true⟩

/-- The check passes exactly when its commands gave the whole evidence, one after the other. -/
theorem snapshotCheck_passes_iff {setting : Setting} {config : Items} {outcome : Except PyError Outcome}
    (h : Execution step world (execute host setting config) trace last outcome) :
    (∃ found, outcome = .ok found ∧ found.Passed) ↔ skippedOutput config = none ∧
      ∃ params, paramsOf host setting config = .ok params ∧
        ∃ evidence : Evidence, evidence.Sound ∧ Follows (evidence.steps host params) trace := by
  cases hskipped : skippedOutput config with
  | some output =>
    obtain ⟨reason, rfl⟩ := execute_skipped hskipped h
    simp [Outcome.Passed]
  | none =>
    cases hparams : paramsOf host setting config with
    | error stop =>
      obtain ⟨found, rfl, hfound⟩ := execute_unstarted hskipped hparams h
      simp [hfound]
    | ok params =>
      simp only [execute, hskipped, hparams] at h
      constructor
      · rintro ⟨found, rfl, hpassed⟩
        obtain ⟨first, ended, middle, second, rfl, hrun, hend⟩ := Execution.bind_ok_iff.mp h
        obtain ⟨rfl, -, heq⟩ := Execution.done_iff.mp hend
        obtain rfl := Except.ok.inj heq
        obtain ⟨_, hended, hfollows⟩ := runWith_follows hrun
        cases hended
        rw [List.append_nil]
        cases hraised : ended.raised with
        | some error => simp [Outcome.Passed, Ended.outcome, hraised, raisedReport] at hpassed
        | none =>
          have hreport : ended.report.passed = true := by
            simpa [Outcome.Passed, Ended.outcome, hraised] using hpassed
          exact ⟨rfl, params, rfl, hfollows hraised hreport⟩
      · rintro ⟨-, _, heq, evidence, hsound, hfollows⟩
        cases heq
        have hplays : ((runWith host params).bind fun ended ↦ .done ended.outcome).Plays
            (evidence.steps host params ++ []) (.ok (.finished evidence.progress.report)) :=
          (runWith_plays hsound).bind (.done _)
        rw [List.append_nil] at hplays
        exact ⟨_, hplays.outcome_eq h hfollows, rfl⟩

/-! ## A run -/

section Site

/-- A document as `kubectl` prints it, with what `json.loads` makes of it. -/
def documentOf (resource : String) : String × Json :=
  match resource with
  | "storageclass" => ("\x7b\"provisioner\": \"csi\"\x7d", .obj [("provisioner", .str "csi")])
  | "volumesnapshotclass" => ("\x7b\"driver\": \"csi\", \"deletionPolicy\": \"Delete\"\x7d",
    .obj [("driver", .str "csi"), ("deletionPolicy", .str "Delete")])
  | "volumesnapshot" =>
    ("\x7b\"metadata\": \x7b\"uid\": \"u-1\"\x7d, " ++
      "\"status\": \x7b\"readyToUse\": true, \"boundVolumeSnapshotContentName\": \"content-1\"\x7d\x7d",
    .obj [("metadata", .obj [("uid", .str "u-1")]),
      ("status", .obj [("readyToUse", .bool true), ("boundVolumeSnapshotContentName", .str "content-1")])])
  | _ =>
    ("\x7b\"spec\": \x7b\"driver\": \"csi\", \"volumeSnapshotRef\": \x7b\"uid\": \"u-1\"\x7d\x7d, " ++
      "\"status\": \x7b\"readyToUse\": true, \"snapshotHandle\": \"h-3\"\x7d\x7d",
    .obj [("spec", .obj [("driver", .str "csi"), ("volumeSnapshotRef", .obj [("uid", .str "u-1")])]),
      ("status", .obj [("readyToUse", .bool true), ("snapshotHandle", .str "h-3")])])

/-- The claim of a name is bound to a volume of that name. -/
def claimDocument (name : String) : String × Json :=
  ("\x7b\"spec\": \x7b\"volumeName\": \"" ++ name ++ "\"\x7d, \"status\": \x7b\"phase\": \"Bound\"\x7d\x7d",
    .obj [("spec", .obj [("volumeName", .str name)]), ("status", .obj [("phase", .str "Bound")])])

def volumeDocument (name : String) : String × Json :=
  ("\x7b\"spec\": \x7b\"csi\": \x7b\"driver\": \"csi\", \"volumeHandle\": \"" ++ name ++ "\"\x7d\x7d\x7d",
    .obj [("spec", .obj [("csi", .obj [("driver", .str "csi"), ("volumeHandle", .str name)])])])

def documents : List (String × Json) :=
  [documentOf "storageclass", documentOf "volumesnapshotclass", documentOf "volumesnapshot",
    documentOf "volumesnapshotcontent", claimDocument "source", claimDocument "restored", volumeDocument "source",
    volumeDocument "restored"]

/-- A host with ASCII text, which reads these documents. -/
def siteHost : CheckHost where
  data := .ascii
  str := fun _ ↦ ""
  repr := fun _ ↦ ""
  typeName := fun _ ↦ "str"
  int := fun _ ↦ .error (.typeError "int() argument must be a string or a number")
  loads := fun text ↦ ((documents.lookup text).map .ok).getD (.error (.other "JSONDecodeError" "Expecting value"))
  fromIsoformat := fun _ ↦ none
  today := fun _ ↦ 739676

/-- What there is: the namespaces, and what was last written to the source. -/
structure Site where
  namespaces : List String := ["default"]
  written : String := ""

def said (stdout : String) : CommandResult := ⟨0, stdout, ""⟩

/-- A site whose snapshots hold the canary. -/
def restores (site : Site) : Command → CommandResult × Site
  | .get resource name _ =>
    let document := match resource with
      | "pvc" => claimDocument name
      | "pv" => volumeDocument name
      | resource => documentOf resource
    (said document.1, site)
  | .createNamespace ns => (said "created", { site with namespaces := ns :: site.namespaces })
  | .exec _ pod argv =>
    if argv = readCanary then (said (if pod = "restored" then "c0ffee" else site.written), site)
    else (said "", { site with written := if argv = writeCanary changed then changed else "c0ffee" })
  | .deleteNamespace ns _ => (said "deleted", { site with namespaces := site.namespaces.filter (· ≠ ns) })
  | _ => (said "", site)

def siteSetting : Setting where
  blockClass := "block"
  snapshotClass := "snapshots"
  suffix := "0a1b2c3d"
  canary := "c0ffee"

def siteTrace : List (Exchange Site fun _ : Command ↦ CommandResult) :=
  ((execute siteHost siteSetting []).interpret restores {}).1

def siteLast : Site := ((execute siteHost siteSetting []).interpret restores {}).2.1

def siteOutcome : Except PyError Outcome := ((execute siteHost siteSetting []).interpret restores {}).2.2

theorem execution_site : Execution (fun before command reply after ↦ restores before command = (reply, after)) {}
    (execute siteHost siteSetting []) siteTrace siteLast siteOutcome :=
  Program.execution_interpret restores (execute siteHost siteSetting []) {}

theorem siteOutcome_eq : siteOutcome = .ok (.finished passedReport) := by decide +kernel

theorem snapshotCheck_passes_site : ∃ params, paramsOf siteHost siteSetting [] = .ok params ∧
    ∃ evidence : Evidence, evidence.Sound ∧ Follows (evidence.steps siteHost params) siteTrace :=
  ((snapshotCheck_passes_iff execution_site).mp ⟨_, siteOutcome_eq, rfl⟩).2

end Site

end IsvValidation.K8s.Snapshot
