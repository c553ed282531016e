import Mathlib.Logic.Function.Basic
import IsvValidation.Storage.EnforcementVerdict
import IsvValidation.Storage.QuotaCleanup

/-!
# A volume as it was found

The quotas of all volumes change with the calls of a run. A run with a supplied claim deletes what it set,
touches no quota which was there, and gives back the quotas it found, when there was no quota of the name
it works with. A volume which is created is deleted, unless the deletion of its quota raises an exception
which is no error of the storage interface: the cleanup ends there.
-/

namespace IsvValidation.Storage.QuotaProbe

open Check Host Library

/-! ## The quotas of all volumes -/

/-- The hard limits which are set. -/
abbrev QuotaRecords := QuotaName → Option ℤ

/-- After this reply to a deletion there is no quota. -/
def isGone : Except ApiError Unit → Bool
  | .ok () => true
  | .error (.notFound _) => true
  | .error _ => false

/-- How a call changes the quotas. One which fails may have been carried out. -/
def changes (before : QuotaRecords) : (call : Call) → Reply call → QuotaRecords → Prop
  | .setQuota quota _ hard, reply, after =>
    after = Function.update before quota (some hard) ∨ reply ≠ .ok () ∧ after = before
  | .deleteQuota quota _ _, reply, after =>
    after = Function.update before quota none ∨ isGone reply = false ∧ after = before
  | .deleteVolume volume _, _, after => ∀ quota, quota.volume ≠ volume → after quota = before quota
  | _, _, after => after = before

namespace Call

/-- The quota a call sets. -/
def sets : Call → Option QuotaName
  | setQuota quota _ _ => some quota
  | _ => none

/-- The quota a call deletes. -/
def deletes : Call → Option QuotaName
  | deleteQuota quota _ _ => some quota
  | _ => none

/-- The volume a call deletes. -/
def deletesVolume : Call → Option VolumeName
  | deleteVolume volume _ => some volume
  | _ => none

/-- A call sets or deletes a quota. -/
def Touches (call : Call) (quota : QuotaName) : Prop := call.sets = some quota ∨ call.deletes = some quota

/-- The quota a run will work with. -/
def acquires : Call → Option QuotaName
  | acquired quota => some quota
  | _ => none

/-- The volume which is created. -/
def creates : (call : Call) → Reply call → Option VolumeName
  | createVolume provider _ _ _ _, .ok volume => some ⟨provider, volume.id⟩
  | _, _ => none

/-- The volume at whose quota a cleanup ends. -/
def endsAt : (call : Call) → Reply call → Option VolumeName
  | deleteQuota quota _ .cleanup, .error error => if error.isStorageApi then none else some quota.volume
  | _, _ => none

/-- If the call deletes a quota, then it is gone. -/
def Succeeds : (call : Call) → Reply call → Prop
  | deleteQuota _ _ _, reply => isGone reply = true
  | _, _ => True

end Call

/-! ## What a run may promise -/

variable {first last : QuotaRecords} {trace : List (Exchange QuotaRecords Reply)}

/-- The volume was created by the run. -/
def Created (trace : List (Exchange QuotaRecords Reply)) (volume : VolumeName) : Prop :=
  ∃ exchange ∈ trace, exchange.op.creates exchange.reply = some volume

/-- The volumes of a run have ids: those it created, and those with a quota it sets or deletes. -/
structure Named (trace : List (Exchange QuotaRecords Reply)) : Prop where
  created : ∀ volume, Created trace volume → volume.id ≠ ""
  touched : ∀ exchange ∈ trace, ∀ quota, exchange.op.Touches quota → quota.volume.id ≠ ""

/-- There was no quota of the name a run works with. -/
def Free (first : QuotaRecords) (trace : List (Exchange QuotaRecords Reply)) : Prop :=
  ∀ exchange ∈ trace, ∀ quota, exchange.op.acquires = some quota → quota.volume.id ≠ "" →
    first quota = none

/-- No cleanup of a volume which was created ends at the quota of the volume. -/
def Caught (trace : List (Exchange QuotaRecords Reply)) : Prop :=
  ∀ exchange ∈ trace, ∀ volume, exchange.op.endsAt exchange.reply = some volume → ¬ Created trace volume

/-- A run leaves the quotas as it found them. -/
structure LeavesAsFound (first : QuotaRecords) (trace : List (Exchange QuotaRecords Reply))
    (last : QuotaRecords) : Prop where
  /-- Each quota which is set is deleted later. -/
  removes : Answered (fun exchange quota ↦ exchange.op.sets = some quota)
    (fun exchange quota ↦ exchange.op.deletes = some quota) trace
  /-- A quota which is set or deleted was not there before the run. -/
  keeps : ∀ exchange ∈ trace, ∀ quota, exchange.op.Touches quota → first quota = none
  /-- Where the quotas are gone which are deleted, those of all volumes which were there are as before. -/
  restores : (∀ exchange ∈ trace, exchange.op.Succeeds exchange.reply) →
    ∀ quota, ¬ Created trace quota.volume → last quota = first quota

/-- Each volume which is created is deleted later. -/
def DeletesCreated (trace : List (Exchange QuotaRecords Reply)) : Prop :=
  Answered (fun exchange volume ↦ exchange.op.creates exchange.reply = some volume)
    (fun exchange volume ↦ exchange.op.deletesVolume = some volume) trace

theorem Named.of_ids
    (hcreated : ∀ exchange ∈ trace, ∀ volume ∈ exchange.op.creates exchange.reply, volume.id ≠ "")
    (htouched : ∀ exchange ∈ trace, (∀ quota ∈ exchange.op.sets, quota.volume.id ≠ "") ∧
      ∀ quota ∈ exchange.op.deletes, quota.volume.id ≠ "") : Named trace where
  created := fun volume ⟨exchange, hmem, hvolume⟩ ↦ hcreated exchange hmem volume hvolume
  touched := fun exchange hmem quota htouch ↦
    htouch.elim ((htouched exchange hmem).1 quota) ((htouched exchange hmem).2 quota)

theorem DeletesCreated.exists_deletes {volume : VolumeName} (h : DeletesCreated trace)
    (hcreated : Created trace volume) :
    ∃ exchange ∈ trace, exchange.op.deletesVolume = some volume := by
  have ⟨exchange, hmem, hcreates⟩ := hcreated
  have ⟨earlier, rest, htrace⟩ := List.append_of_mem hmem
  have ⟨later, hlater, hdeletes⟩ := h earlier exchange rest htrace volume hcreates
  rw [htrace]
  exact ⟨later, List.mem_append_right _ (List.mem_cons_of_mem _ hlater), hdeletes⟩

/-! ## Quotas -/

section Quotas

variable {stage : Stage} {call : Call} {quota : QuotaName}

/-- A run works with a quota it acquired. -/
theorem working_or_acquires {pending : Bool} (h : stage.sent call = .working quota pending) :
    (∃ pending, stage = .working quota pending) ∨ call.acquires = some quota := by
  cases stage with
  | idle =>
    cases call with
    | acquired other => exact Or.inr (congrArg some (Stage.working.inj h).1)
    | _ => cases h
  | working other pending =>
    cases call with
    | acquired other => exact Or.inr (congrArg some (Stage.working.inj h).1)
    | _ => exact Or.inl ⟨pending, congrArg (Stage.working · pending) (Stage.working.inj h).1⟩

theorem working_of_touches (hallowed : quotaMonitor.allowed stage call) (h : call.Touches quota) :
    ∃ pending, stage = .working quota pending := by
  cases call with
  | setQuota other => exact Option.some.inj (h.resolve_right nofun) ▸ hallowed
  | deleteQuota other => exact Option.some.inj (h.resolve_left nofun) ▸ hallowed
  | _ => exact (h.elim nofun nofun)

/-- A quota which is set is pending until it is deleted. -/
theorem pending_sent (hallowed : quotaMonitor.allowed stage call)
    (hid : call.Touches quota → quota.volume.id ≠ "")
    (h : call.sets = some quota ∨ stage = .working quota true ∧ call.deletes ≠ some quota) :
    stage.sent call = .working quota true := by
  match h with
  | .inl hset =>
    have ⟨pending, hworking⟩ := working_of_touches hallowed (Or.inl hset)
    cases call with
    | setQuota other =>
      rw [hworking]
      exact congrArg (Stage.working quota) (decide_eq_true (hid (Or.inl hset)))
    | _ => cases hset
  | .inr ⟨hpending, hkept⟩ =>
    rw [hpending] at hallowed ⊢
    cases call with
    | acquired => cases hallowed
    | setQuota other =>
      have ⟨_, hother⟩ := hallowed
      have hsame : other = quota := (Stage.working.inj hother).1.symm
      exact congrArg (Stage.working quota) (decide_eq_true (hid (Or.inl (congrArg some hsame))))
    | deleteQuota other =>
      have ⟨_, hother⟩ := hallowed
      exact absurd (congrArg some (Stage.working.inj hother).1.symm) hkept
    | _ => rfl

/-- What a call does not touch stays as it was. -/
theorem changes_untouched {before after : QuotaRecords} {reply : Reply call}
    (hchange : changes before call reply after) (htouch : ¬ call.Touches quota)
    (hvolume : call.deletesVolume ≠ some quota.volume) : after quota = before quota := by
  cases call with
  | setQuota other =>
    have hother : quota ≠ other := fun heq ↦ htouch (Or.inl (congrArg some heq.symm))
    match hchange with
    | .inl hafter => rw [hafter, Function.update_of_ne hother]
    | .inr ⟨_, hafter⟩ => rw [hafter]
  | deleteQuota other =>
    have hother : quota ≠ other := fun heq ↦ htouch (Or.inr (congrArg some heq.symm))
    match hchange with
    | .inl hafter => rw [hafter, Function.update_of_ne hother]
    | .inr ⟨_, hafter⟩ => rw [hafter]
  | deleteVolume volume =>
    exact hchange quota fun heq ↦ hvolume (congrArg some heq.symm)
  | _ => exact congrFun hchange quota

/-- A deletion after which the quota is gone. -/
theorem changes_deleted {before after : QuotaRecords} {reply : Reply call}
    (hchange : changes before call reply after) (hsucceeds : call.Succeeds reply)
    (hdelete : call.deletes = some quota) : after quota = none := by
  cases call with
  | deleteQuota other =>
    rw [← Option.some.inj hdelete]
    match hchange with
    | .inl hafter => rw [hafter, Function.update_self]
    | .inr ⟨hstays, _⟩ => exact absurd (hsucceeds.symm.trans hstays) (by decide)
  | _ => cases hdelete

/-- The quota a run works with was not there. -/
def Holds (first : QuotaRecords) (stage : Stage) : Prop :=
  ∀ quota pending, stage = .working quota pending → quota.volume.id ≠ "" → first quota = none

theorem holds_sent (hfree : ∀ quota, call.acquires = some quota → quota.volume.id ≠ "" →
    first quota = none) (h : Holds first stage) : Holds first (stage.sent call) := by
  intro quota pending hworking hid
  match working_or_acquires hworking with
  | .inl ⟨pending, hbefore⟩ => exact h quota pending hbefore hid
  | .inr hacquires => exact hfree quota hacquires hid

/-- The quotas which are not pending are as they were. -/
def AsBefore (first : QuotaRecords) (created : VolumeName → Prop) (stage : Stage) (world : QuotaRecords) :
    Prop :=
  Holds first stage ∧
    ∀ quota, ¬ created quota.volume → stage ≠ .working quota true → world quota = first quota

theorem asBefore_step {created : VolumeName → Prop} {before after : QuotaRecords} {reply : Reply call}
    (hchange : changes before call reply after) (hallowed : quotaMonitor.allowed stage call)
    (hsucceeds : call.Succeeds reply)
    (hid : ∀ quota, call.Touches quota → quota.volume.id ≠ "")
    (hfree : ∀ quota, call.acquires = some quota → quota.volume.id ≠ "" → first quota = none)
    (hcreated : ∀ volume, call.deletesVolume = some volume → created volume)
    (h : AsBefore first created stage before) : AsBefore first created (stage.sent call) after := by
  refine ⟨holds_sent hfree h.1, fun quota hquota hsent ↦ ?_⟩
  by_cases htouch : call.Touches quota
  · have ⟨pending, hworking⟩ := working_of_touches hallowed htouch
    match htouch with
    | .inl hset => exact absurd (pending_sent hallowed (hid quota) (Or.inl hset)) hsent
    | .inr hdelete =>
      rw [changes_deleted hchange hsucceeds hdelete]
      exact (h.1 quota pending hworking (hid quota htouch)).symm
  · have hvolume : call.deletesVolume ≠ some quota.volume := fun heq ↦ hquota (hcreated _ heq)
    have hstage : stage ≠ .working quota true := fun hpending ↦
      hsent (pending_sent hallowed (hid quota) (Or.inr ⟨hpending, fun heq ↦ htouch (Or.inr heq)⟩))
    rw [changes_untouched hchange htouch hvolume]
    exact h.2 quota hquota hstage

end Quotas

/-! ## Volumes -/

section Volumes

variable {owed : Option VolumeName} {call : Call} {reply : Reply call} {volume : VolumeName}

/-- What is owed after a call and its reply. -/
def owedAfter (owed : Option VolumeName) (call : Call) (reply : Reply call) : Option VolumeName :=
  volumeMonitor.heard (volumeMonitor.sent owed call) call reply

/-- A volume which is owed is the one which is created, or was owed before. -/
theorem created_or_owed (h : owedAfter owed call reply = some volume) :
    call.creates reply = some volume ∨ owed = some volume := by
  cases call with
  | createVolume provider =>
    match reply with
    | .ok created =>
      by_cases hid : created.id = ""
      · exact nomatch (if_pos hid).symm.trans h
      · exact Or.inl ((if_neg hid).symm.trans h)
    | .error error => exact Or.inr h
  | deleteQuota quota tenantId site =>
    match site, reply with
    | .roundTrip, _ => exact Or.inr h
    | .cleanup, .ok () => exact Or.inr h
    | .cleanup, .error error =>
      by_cases hends : error.isStorageApi = false ∧ owed = some quota.volume
      · exact nomatch (if_pos hends).symm.trans h
      · exact Or.inr ((if_neg hends).symm.trans h)
  | deleteVolume => cases h
  | _ => exact Or.inr h

/-- A volume which is created is owed. -/
theorem owed_created (hid : volume.id ≠ "") (h : call.creates reply = some volume) :
    owedAfter owed call reply = some volume := by
  cases call with
  | createVolume provider =>
    match reply with
    | .ok created =>
      have hvolume := Option.some.inj h
      rw [← hvolume] at hid ⊢
      exact if_neg hid
    | .error error => cases h
  | _ => cases h

/-- It is owed until it is deleted, or the cleanup ends at its quota. -/
theorem owed_after (hallowed : volumeMonitor.allowed (some volume) call)
    (hdelete : call.deletesVolume ≠ some volume) (hends : call.endsAt reply ≠ some volume) :
    owedAfter (some volume) call reply = some volume := by
  cases call with
  | createVolume => cases hallowed
  | deleteVolume other => exact absurd (hallowed : some volume = some other).symm hdelete
  | deleteQuota quota tenantId site =>
    match site, reply with
    | .roundTrip, _ => rfl
    | .cleanup, .ok () => rfl
    | .cleanup, .error error =>
      refine if_neg fun ⟨hraised, howed⟩ ↦ hends ?_
      rw [Call.endsAt, hraised]
      exact howed.symm
  | _ => rfl

end Volumes

/-! ## Runs -/

section Runs

variable {check : Check} {providers : List Provider} {outcome : Except ApiError Bool}

/-- Only volumes are deleted which the run created. -/
theorem created_of_deletesVolume (h : volumeMonitor.Permits none trace) :
    ∀ exchange ∈ trace, ∀ volume, exchange.op.deletesVolume = some volume → Created trace volume := by
  refine h.forall_mem (I := fun owed ↦ ∀ volume, owed = some volume → Created trace volume)
    (P := fun exchange ↦ ∀ volume, exchange.op.deletesVolume = some volume → Created trace volume)
    ?_ ?_ nofun
  · intro exchange hmem owed howed _ volume hafter
    match created_or_owed hafter with
    | .inl hcreates => exact ⟨exchange, hmem, hcreates⟩
    | .inr hbefore => exact howed volume hbefore
  · intro exchange hmem owed howed hallowed volume hdelete
    apply howed volume
    revert hallowed hdelete
    cases exchange.op with
    | deleteVolume other => exact fun hallowed hdelete ↦ hallowed.trans hdelete
    | _ => exact fun _ hdelete ↦ (nomatch hdelete)

theorem deletesCreated_of_permits (h : volumeMonitor.Permits none trace)
    (hlast : volumeMonitor.along none trace = none) (hnamed : Named trace) (hcaught : Caught trace) :
    DeletesCreated trace := by
  refine h.answered (I := fun _ ↦ True)
    (O := fun volume owed ↦ owed = some volume ∧ Created trace volume) (fun _ _ _ _ _ ↦ trivial)
    ?_ ?_ trivial fun volume howed ↦ ?_
  · intro exchange hmem owed volume _ _ hcreates
    have hcreated : Created trace volume := ⟨exchange, hmem, hcreates⟩
    exact ⟨owed_created (hnamed.created volume hcreated) hcreates, hcreated⟩
  · intro exchange hmem owed volume ⟨howed, hcreated⟩ hallowed hkept
    rw [howed] at hallowed ⊢
    exact ⟨owed_after hallowed hkept fun hends ↦ hcaught exchange hmem volume hends hcreated, hcreated⟩
  · rw [hlast] at howed
    cases howed.1

theorem removes_of_permits {stage : Stage} (h : quotaMonitor.Permits stage trace)
    (hlast : (quotaMonitor.along stage trace).Clean) (hnamed : Named trace) :
    Answered (fun exchange quota ↦ exchange.op.sets = some quota)
      (fun exchange quota ↦ exchange.op.deletes = some quota) trace := by
  refine h.answered (I := fun _ ↦ True) (O := fun quota stage ↦ stage = .working quota true)
    (fun _ _ _ _ _ ↦ trivial) ?_ ?_ trivial fun quota howed ↦ ?_
  · intro exchange hmem stage quota _ hallowed hset
    exact pending_sent hallowed (hnamed.touched exchange hmem quota) (Or.inl hset)
  · intro exchange hmem stage quota hpending hallowed hkept
    exact pending_sent hallowed (hnamed.touched exchange hmem quota) (Or.inr ⟨hpending, hkept⟩)
  · rw [howed] at hlast
    cases hlast

theorem keeps_of_permits {stage : Stage} (h : quotaMonitor.Permits stage trace) (hnamed : Named trace)
    (hfree : Free first trace) (hstage : Holds first stage) :
    ∀ exchange ∈ trace, ∀ quota, exchange.op.Touches quota → first quota = none := by
  refine h.forall_mem (I := Holds first)
    (P := fun exchange ↦ ∀ quota, exchange.op.Touches quota → first quota = none) ?_ ?_ hstage
  · intro exchange hmem stage hholds _
    exact holds_sent (hfree exchange hmem) hholds
  · intro exchange hmem stage hholds hallowed quota htouch
    have ⟨pending, hworking⟩ := working_of_touches hallowed htouch
    exact hholds quota pending hworking (hnamed.touched exchange hmem quota htouch)

/-- A run of a check with a supplied claim leaves the quotas as it found them when there was no quota of
the name it works with, and it deletes each volume it created when no cleanup ends at the quota. -/
theorem exerciseProviders_leavesAsFound
    (hrun : Execution changes first (check.exerciseProviders providers) trace last outcome)
    (hnamed : Named trace) :
    (check.pvcName ≠ "" → Free first trace → LeavesAsFound first trace last) ∧
      (Caught trace → DeletesCreated trace) := by
  have ⟨hvolumes, hreturns, hraises⟩ := (repays_exerciseProviders providers).execution hrun
  have hend : volumeMonitor.along none trace = none := by
    match outcome with
    | .ok result => exact hreturns result rfl
    | .error error => exact hraises error rfl
  refine ⟨fun hpvc hfree ↦ ?_, deletesCreated_of_permits hvolumes hend hnamed⟩
  have ⟨hquotas, hreturns, hraises⟩ :=
    (clean_exerciseProviders hpvc providers (rfl : Stage.idle.Clean)).execution hrun
  have hclean : (quotaMonitor.along .idle trace).Clean := by
    match outcome with
    | .ok result => exact hreturns result rfl
    | .error error => exact hraises error rfl
  refine ⟨removes_of_permits hquotas hclean hnamed, keeps_of_permits hquotas hnamed hfree nofun, ?_⟩
  intro hsucceeds quota hcreated
  have hlast : AsBefore first (Created trace) (quotaMonitor.along .idle trace) last := by
    refine hquotas.invariant hrun (I := AsBefore first (Created trace)) ?_ ⟨nofun, fun _ _ _ ↦ rfl⟩
    intro exchange hmem stage hbefore hallowed hchange
    exact asBefore_step hchange hallowed (hsucceeds exchange hmem) (hnamed.touched exchange hmem)
      (hfree exchange hmem) (created_of_deletesVolume hvolumes exchange hmem) hbefore
  refine hlast.2 quota hcreated fun hpending ↦ ?_
  rw [hpending] at hclean
  cases hclean

end Runs

/-! ## Runs which leave something behind -/

/-- A provider which creates a volume without mount instructions. Making a directory and each deletion of a
quota reply as given, and all else succeeds. -/
def backend (mkdir : ℤ) (deletion : Except ApiError Unit) : (call : Call) → Reply call
  | .uuid => "1a2b3c4d"
  | .command text =>
    if Text.contains text "get pvc" then
      { exitCode := 0, stdout := "\x7b\"spec\": \x7b\"volumeName\": \"pv-7\"\x7d\x7d", stderr := "" }
    else if Text.contains text "get pv" then { exitCode := 0, stdout := "vol-7", stderr := "" }
    else if Text.contains text "mkdir" then { exitCode := mkdir, stdout := "", stderr := "" }
    else { exitCode := 0, stdout := "", stderr := "" }
  | .write _ _ => { exitCode := 0, stdout := "", stderr := "" }
  | .applyPvc _ _ => (0, "")
  | .applyMountPod _ _ _ => (0, "")
  | .polls _ _ => 0
  | .mkdtemp _ => .ok "/tmp/isvtest-uq"
  | .getVolume volume _ => .ok { tenantId := "root", id := volume.id }
  | .listVolumes _ _ => .ok []
  | .createVolume _ _ _ _ _ => .ok { tenantId := "root", id := "vol-9" }
  | .deleteVolume _ _ => .ok ()
  | .acquired _ => ()
  | .setQuota _ _ _ => .ok ()
  | .getQuota _ _ => .ok none
  | .listQuotas _ _ _ => .ok []
  | .deleteQuota _ _ _ => deletion
  | .report _ => ()

/-- The quotas after a call. -/
def moved (records : QuotaRecords) : Call → QuotaRecords
  | .setQuota quota _ hard => Function.update records quota (some hard)
  | .deleteQuota quota _ _ => Function.update records quota none
  | _ => records

theorem changes_moved (mkdir : ℤ) (deletion : Except ApiError Unit) (records : QuotaRecords) (call : Call) :
    changes records call (backend mkdir deletion call) (moved records call) := by
  cases call with
  | setQuota => exact Or.inl rfl
  | deleteQuota => exact Or.inl rfl
  | deleteVolume => exact fun _ _ ↦ rfl
  | _ => rfl

/-- The check of user quotas on a supplied claim and pod. -/
def suppliedCheck : Check := storageUserQuotaEnforcementCheck
  { Check.asciiHost with
    loads := fun text ↦
      if text = "\x7b\"spec\": \x7b\"volumeName\": \"pv-7\"\x7d\x7d" then
        .ok (.obj [("spec", .obj [("volumeName", .str "pv-7")])])
      else .error "Expecting value"
    str := fun value ↦
      match value with
      | .str text => text
      | _ => "" }
  { podName := some "writer", pvcName := some "home" } "" (some "kubectl")

def clusterProvider : Provider := { name := "vast", volumeType := "nfs" }

def nativeProvider : Provider := { name := "vast", volumeType := "nfs", nativeLifecycle := true }

/-- A run on a supplied claim and on a volume it creates, with no quotas before. -/
def bothRun :=
  (suppliedCheck.exerciseProviders [clusterProvider, nativeProvider]).simulate (backend 0 (.ok ())) moved
    fun _ ↦ none

/-- A run whose backend breaks at the deletion of the quota. -/
def brokenRun :=
  (suppliedCheck.exerciseProviders [nativeProvider]).simulate
    (backend 0 (.error (.other "ConnectionError" "connection reset"))) moved fun _ ↦ none

/-- The user who is tried has a quota on each volume. -/
def usersQuota : QuotaRecords := fun quota ↦ if quota.name = "65534" then some 5000000000 else none

/-- A run on a supplied claim, on which no directory can be made. -/
def suppliedRun :=
  (suppliedCheck.exerciseProviders [clusterProvider]).simulate (backend 1 (.ok ())) moved usersQuota

/-- A quota which is set is deleted, and so is a volume which is created. -/
theorem bothRun_leavesAsFound :
    (∃ exchange ∈ bothRun.1, exchange.op.sets = some ⟨.user, ⟨"vast", "vol-7"⟩, "65534"⟩) ∧
      Created bothRun.1 ⟨"vast", "vol-9"⟩ ∧
      LeavesAsFound (fun _ ↦ none) bothRun.1 bothRun.2.1 ∧ DeletesCreated bothRun.1 := by
  have hends : ∀ exchange ∈ bothRun.1, exchange.op.endsAt exchange.reply = none := by
    decide +kernel
  have hnamed : Named bothRun.1 := .of_ids (by decide +kernel) (by decide +kernel)
  have hrun : Execution changes (fun _ ↦ none)
      (suppliedCheck.exerciseProviders [clusterProvider, nativeProvider]) bothRun.1 bothRun.2.1 bothRun.2.2 := by
    rw [bothRun]
    exact Program.execution_simulate (changes_moved 0 (.ok ())) _ _
  have ⟨hfound, hdeletes⟩ := exerciseProviders_leavesAsFound hrun hnamed
  refine ⟨by decide +kernel, by unfold Created; decide +kernel, ?_, ?_⟩
  · exact hfound (by decide) fun _ _ _ _ _ ↦ rfl
  · exact hdeletes fun exchange hmem volume hvolume ↦ nomatch (hends exchange hmem).symm.trans hvolume

/-- Where no directory can be made the quota of the user is deleted, which the run never set. A volume is
not deleted when the backend breaks at the deletion of its quota. -/
theorem suppliedRun_not_leavesAsFound :
    (∃ trace last outcome, Execution changes usersQuota
      (suppliedCheck.exerciseProviders [clusterProvider]) trace last outcome ∧
        suppliedCheck.pvcName ≠ "" ∧ Named trace ∧ ¬ LeavesAsFound usersQuota trace last) ∧
    ∃ trace last outcome, Execution changes (fun _ ↦ none)
      (suppliedCheck.exerciseProviders [nativeProvider]) trace last outcome ∧
        Named trace ∧ ¬ DeletesCreated trace := by
  constructor
  · refine ⟨suppliedRun.1, _, _, Program.execution_simulate (changes_moved 1 (.ok ())) _ _, by decide,
      .of_ids (by decide +kernel) (by decide +kernel), fun h ↦ ?_⟩
    have ⟨exchange, hmem, hdeletes⟩ : ∃ exchange ∈ suppliedRun.1,
        exchange.op.deletes = some ⟨.user, ⟨"vast", "vol-7"⟩, "65534"⟩ := by decide +kernel
    have hnone := h.keeps exchange hmem _ (Or.inr hdeletes)
    cases hnone
  · refine ⟨brokenRun.1, _, _, Program.execution_simulate (changes_moved 0 _) _ _,
      .of_ids (by decide +kernel) (by decide +kernel), fun h ↦ ?_⟩
    have hcreated : Created brokenRun.1 ⟨"vast", "vol-9"⟩ := by
      unfold Created
      decide +kernel
    have hkept : ∀ exchange ∈ brokenRun.1, exchange.op.deletesVolume = none := by decide +kernel
    have ⟨exchange, hmem, hdeletes⟩ := h.exists_deletes hcreated
    exact nomatch (hkept exchange hmem).symm.trans hdeletes

end IsvValidation.Storage.QuotaProbe
