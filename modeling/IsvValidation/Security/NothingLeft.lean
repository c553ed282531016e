import IsvValidation.Security.AccountState

/-!
# What the sweeps remove

A sweep which returns no errors has removed what is owned of its kind, unless a reply hid it.
-/

namespace IsvValidation.Security

open Host Library
open Aws (AwsError alreadyGoneCodes transientAwsCodes)

variable {account : Account}

/-! ## Load balancers and target groups -/

theorem tagValue_of_mem {resource : Resource} {tag : Tag} (h : tag ∈ account.tags resource) :
    tagValue (account.tags resource) tag.key = some tag.value := by
  have hkeys : (((account.tags resource).map fun tag ↦ (tag.key, tag.value)).map Prod.fst).Nodup := by
    rw [List.map_map]
    exact account.nodup_keys resource
  exact (OrderedMap.get?_ofList hkeys).mpr (List.mem_map_of_mem h)

theorem createdByIsvtest_of_tagged {resource : Resource} (h : account.Tagged resource) :
    createdByIsvtest (account.tags resource) :=
  decide_eq_true (tagValue_of_mem h)

theorem hasOwnedTags_of_owned {arn : String} (h : account.Owned (.elb arn)) :
    hasOwnedTags (account.tags (.elb arn)) := by
  have ⟨tag, hmem, htag⟩ := List.any_eq_true.mp h.1
  have ⟨hkey, hvalue⟩ := Bool.and_eq_true_iff.mp htag
  have hname := tagValue_of_mem hmem
  rw [of_decide_eq_true hkey] at hname
  apply Bool.and_eq_true_iff.mpr
  exact ⟨createdByIsvtest_of_tagged h.2, by rw [hname]; exact hvalue⟩

/-- Every ARN is in some batch. -/
theorem exists_batch {arns : List String} {arn : String} (h : arn ∈ arns) :
    ∃ batch ∈ batches arns, arn ∈ batch := by
  have ⟨i, hi, heq⟩ := List.mem_iff_getElem.mp h
  refine ⟨(arns.drop (20 * (i / 20))).take 20, ?_, ?_⟩
  · apply List.mem_map_of_mem
    apply List.mem_range.mpr
    omega
  · apply List.mem_of_getElem? (i := i % 20)
    rw [List.getElem?_take_of_lt (by omega), List.getElem?_drop, Nat.div_add_mod,
      List.getElem?_eq_getElem hi, heq]

/-- What is owned and there is found by its tags, when no error is reported. -/
theorem mem_ownedArns {what : String} {batches : List (List String)} {batch : List String}
    {arn : String} (hbatch : batch ∈ batches) (harn : arn ∈ batch) (howned : account.Owned (.elb arn)) :
    RemovesOn account (.resource (.elb arn)) (fun found ↦ found.1 = [] ∧ arn ∉ found.2)
      (ownedArns what batches) := by
  induction batches with
  | nil => exact absurd hbatch List.not_mem_nil
  | cons first rest ih =>
    rcases List.mem_cons.mp hbatch with heq | hrest
    · have hfirst : RemovesOn account (.resource (.elb arn)) (fun found ↦ found.1 = [] ∧ arn ∉ found.2)
          (ownedArnsOf what first) := by
        apply removesOn_call
        intro before reply after ⟨hstep, _⟩ hthere
        apply removesOn_onReply
        · intro descriptions hreply
          apply removesOn_done
          intro ⟨_, hnot⟩
          have ⟨tags, hmem⟩ := hstep.complete descriptions hreply arn (heq ▸ harn) (hstep.shrinks hthere)
          have htags : tags = account.tags (.elb arn) := hstep.truthful descriptions hreply _ hmem
          apply hnot
          apply List.mem_map.mpr
          exact ⟨(arn, tags), List.mem_filter.mpr ⟨hmem, htags ▸ hasOwnedTags_of_owned howned⟩, rfl⟩
        · intro code text _
          exact removesOn_done (by simp)
      apply hfirst.bind
      intro found
      apply (Program.Within.all _).bind
      intro others _
      exact .done (by simp_all)
    · apply removesOn_bind
      intro found
      apply (ih hrest).bind
      intro others
      exact .done (by simp_all)

theorem removes_sweepArns {what plural : String} {listing : Listing String}
    {sweep : String → TeardownProgram (List String)} {arn : String}
    (howned : account.Owned (.elb arn)) (hsweep : Removes account (.resource (.elb arn)) (sweep arn))
    (hlisted : listing.error = none → arn ∈ listing.pages.flatten)
    (hreadable : ∀ code text, listing.error = some (.client code text) →
      code ∉ elbv2ReadPermissionErrors) :
    Removes account (.resource (.elb arn)) (sweepArns what plural listing sweep) := by
  unfold sweepArns
  split
  next herror =>
    have ⟨batch, hbatch, harn⟩ := exists_batch (hlisted herror)
    apply (mem_ownedArns hbatch harn howned).bind_or
    intro found
    by_cases hfound : arn ∈ found.2
    · apply Or.inr
      exact (removes_collect hfound hsweep).after found.1
    · apply Or.inl
      apply (Program.Within.all _).bind
      intro errors _
      exact .done fun hempty ↦ ⟨(List.append_eq_nil_iff.mp hempty).1, hfound⟩
  next code text herror =>
    rw [if_neg (hreadable code text herror)]
    exact removesOn_done (by simp)
  · exact removesOn_raise _

theorem removes_loadBalancer {arn : String} (howned : account.Owned (.elb arn))
    (hkind : account.isLoadBalancer arn) :
    Removes account (.resource (.elb arn)) cleanupOwnedLoadBalancers := by
  apply removesOn_call
  intro before listing after ⟨hstep, hsmooth⟩ hthere
  have hbefore := hstep.shrinks hthere
  apply removes_sweepArns howned
  · apply removesOn_call
    intro before reply after ⟨hstep, _⟩ hthere
    apply removesOn_onReply
    · intro _ hreply
      exact absurd hthere (hstep.accepted (congrArg some hreply) _ rfl)
    · intro code text hreply
      split
      next hcode =>
        have hgone : code ∈ (SecurityCall.deleteLoadBalancer arn).goneCodes :=
          List.mem_singleton.mpr hcode
        exact absurd hthere (hstep.gone code text (congrArg some hreply) hgone _ rfl)
      · exact removesOn_done (by simp)
  · intro herror
    exact hstep.complete herror arn hkind hbefore
  · intro code text herror hcode
    exact hsmooth.reveals code text herror hcode arn hkind howned hbefore

theorem removes_targetGroup {arn : String} (howned : account.Owned (.elb arn))
    (hkind : account.isLoadBalancer arn = false) :
    Removes account (.resource (.elb arn)) cleanupOwnedTargetGroups := by
  apply removesOn_call
  intro before listing after ⟨hstep, hsmooth⟩ hthere
  have hbefore := hstep.shrinks hthere
  apply removes_sweepArns howned
  · apply Deletes.deleteOr
    exact deletes_call (.deleteTargetGroup arn) rfl (List.Subset.refl _)
      fun reply ↦ ⟨reply, rfl, rfl⟩
  · intro herror
    exact hstep.complete herror arn hkind hbefore
  · intro code text herror hcode
    exact hsmooth.reveals code text herror hcode arn hkind howned hbefore

/-! ## Instances, volumes and VPCs -/

theorem removes_instance {instanceId : String} (howned : account.Owned (.compute instanceId)) :
    Removes account (.resource (.compute instanceId)) cleanupOwnedInstances := by
  apply removesOn_call
  intro before listing after ⟨hstep, _⟩ hthere
  split
  · exact removesOn_raise _
  next herror =>
    have ⟨item, hitem, hid, hstate⟩ := hstep.complete herror instanceId howned.2 (hstep.shrinks hthere)
    have hname : resourceHasOwnedName item.tags := by
      rw [(hstep.truthful item hitem).1, hid]
      exact howned.1
    have hselected : instanceId ∈ (listing.pages.flatten.filter fun item ↦
        item.state ≠ "terminated" && resourceHasOwnedName item.tags).map Instance.instanceId := by
      apply List.mem_map.mpr
      exact ⟨item, List.mem_filter.mpr ⟨hitem, by simp [hstate, hname]⟩, hid⟩
    dsimp only
    rw [if_neg (List.ne_nil_of_mem hselected)]
    apply removesOn_call
    intro before reply after ⟨hstep, _⟩ hthere
    apply removesOn_onReply
    · intro _ hreply
      exact absurd hthere (hstep.accepted (congrArg some hreply) _ ⟨instanceId, hselected, rfl⟩)
    · intro _ _ _
      exact removesOn_done (by simp)

theorem removes_volume {volumeId : String} (howned : account.Owned (.volume volumeId)) :
    Removes account (.resource (.volume volumeId)) cleanupOwnedVolumes := by
  apply removesOn_call
  intro before listing after ⟨hstep, _⟩ hthere
  apply removes_sweepPages
  intro herror
  have ⟨item, hitem, hid⟩ := hstep.complete herror volumeId howned.2 (hstep.shrinks hthere)
  have hname : resourceHasOwnedName item.tags := by
    rw [(hstep.truthful item hitem).1, hid]
    exact howned.1
  refine ⟨item, hitem, ?_⟩
  rw [if_pos hname, hid]
  apply Deletes.deleteOr
  exact deletes_call (.deleteVolume volumeId) rfl (List.Subset.refl _)
    fun reply ↦ ⟨reply, rfl, rfl⟩

theorem removes_vpc {vpcId : String} (howned : account.Owned (.vpc vpcId)) :
    Removes account (.resource (.vpc vpcId)) cleanupOwnedVpcs := by
  apply removesOn_call
  intro before reply after ⟨hstep, hsmooth⟩ hthere
  have hbefore := hstep.shrinks hthere
  cases hreply : reply with
  | error error => exact removesOn_raise error
  | ok page =>
    have ⟨item, hitem, hid⟩ : ∃ item ∈ page.items, item.id = vpcId := by
      by_cases htoken : page.nextToken = none
      · exact hstep.complete page hreply htoken vpcId howned.2 hbefore
      · exact hsmooth.reveals page hreply htoken vpcId howned hbefore
    have hname : resourceHasOwnedName item.tags := by
      rw [(hstep.truthful page hreply item hitem).1, hid]
      exact howned.1
    apply removes_collect hitem
    rw [if_pos hname, hid]
    -- what the VPC contains may stay behind; then AWS does not accept the last call
    iterate 8 apply removesOn_bind; intro _
    apply Removes.after
    apply Deletes.releaseOr
    exact deletes_call (.deleteVpc vpcId) rfl (List.Subset.refl _)
      fun reply ↦ ⟨reply, rfl, rfl⟩

/-! ## Certificates, aliases and keys -/

theorem removes_certificate {name : String} (howned : account.Owned (.certificate name)) :
    Removes account (.resource (.certificate name)) cleanupOwnedIamServerCerts := by
  apply removesOn_call
  intro before listing after ⟨hstep, _⟩ hthere
  cases herror : listing.error with
  | none =>
    have hitem := hstep.complete herror name (hstep.shrinks hthere)
    have hsweep : Removes account (.resource (.certificate name))
        (cleanupOwnedIamServerCerts.sweep name) := by
      have hname : Text.startsWith name sec13Prefix := howned.1
      unfold cleanupOwnedIamServerCerts.sweep
      rw [if_pos hname]
      apply Deletes.releaseOr
      exact deletes_call (.deleteServerCertificate name) rfl (List.Subset.refl _)
        fun reply ↦ ⟨reply, rfl, rfl⟩
    exact (removes_collect hitem hsweep).bind fun _ ↦ .done fun hempty ↦ hempty
  | some error =>
    apply removesOn_bind
    intro errors
    split
    · contradiction
    · exact removesOn_done (by simp)
    · exact removesOn_raise _

/-- What an alias is reported with stays in the report. -/
theorem returns_schedule (item : KeyAlias) (errors : List String) :
    Returns (fun result ↦ result = [] → errors = []) (cleanupAlias.schedule item errors) := by
  unfold cleanupAlias.schedule
  split
  · exact .done fun h ↦ h
  · apply within_call (.scheduleKeyDeletion item.targetKeyId) trivial
    intro reply _
    apply within_onReply
    · intro _ _
      exact .done fun h ↦ h
    · intro code text
      split
      · exact .done fun h ↦ h
      · exact .done (by simp)

theorem removes_alias {aliasName keyId : String}
    (hname : Text.startsWith aliasName sec11KmsAliasPrefix) :
    Removes account (.alias aliasName keyId) cleanupOwnedKms := by
  apply removesOn_call
  intro before listing after ⟨hstep, _⟩ hthere
  apply removes_sweepPages
  intro herror
  have ⟨item, hitem, hsame⟩ := hstep.complete herror aliasName keyId (hstep.shrinks hthere)
  refine ⟨item, hitem, ?_⟩
  rw [if_pos (hsame ▸ hname)]
  apply removesOn_call
  intro before reply after ⟨hstep, _⟩ hthere
  have hremoved : Thing.alias aliasName keyId ∈ (SecurityCall.deleteAlias item.aliasName).removes :=
    ⟨keyId, by rw [hsame]⟩
  apply removesOn_onReply
  · intro _ hreply
    exact absurd hthere (hstep.accepted (congrArg some hreply) _ hremoved)
  · intro code text hreply
    split
    next hcode =>
      have hgone : code ∈ (SecurityCall.deleteAlias item.aliasName).goneCodes :=
        List.mem_singleton.mpr hcode
      exact absurd hthere (hstep.gone code text (congrArg some hreply) hgone _ hremoved)
    · intro before trace after result hsweeps hresult
      have hempty := (returns_schedule item _).returns_result (fun _ _ _ _ _ ↦ trivial) hsweeps hresult
      cases hempty

/-- The key of an alias is scheduled for deletion right after the alias is deleted. -/
theorem removes_key {item : KeyAlias} (hkey : item.targetKeyId ≠ "") :
    Removes account (.resource (.key item.targetKeyId)) (cleanupAlias item) := by
  have hschedule (errors : List String) :
      Removes account (.resource (.key item.targetKeyId)) (cleanupAlias.schedule item errors) := by
    unfold cleanupAlias.schedule
    rw [if_neg hkey]
    apply removesOn_call
    intro before reply after ⟨hstep, _⟩ hthere
    apply removesOn_onReply
    · intro _ hreply
      exact absurd hthere (hstep.accepted (congrArg some hreply) _ rfl)
    · intro code text hreply
      split
      next hcode =>
        have hgone : code ∈ (SecurityCall.scheduleKeyDeletion item.targetKeyId).goneCodes := by
          simpa [SecurityCall.goneCodes] using hcode
        exact absurd hthere (hstep.gone code text (congrArg some hreply) hgone _ rfl)
      · exact removesOn_done (by simp)
  apply removesOn_call
  intro before reply after _ _
  apply removesOn_onReply
  · intro _ _
    exact hschedule []
  · intro _ _ _
    exact hschedule _

/-! ## Buckets and users -/

theorem removes_bucket {name : String} (howned : account.Owned (.bucket name)) :
    Removes account (.resource (.bucket name)) cleanupOwnedBuckets := by
  apply removesOn_call
  intro before reply after ⟨hstep, hsmooth⟩ hthere
  have hbefore := hstep.shrinks hthere
  apply removesOn_onReply
  · intro page hreply
    have hitem : name ∈ page.items := by
      by_cases htoken : page.nextToken = none
      · exact hstep.complete page hreply htoken name hbefore
      · exact hsmooth.reveals page hreply htoken name howned hbefore
    apply removes_collect hitem
    have hname : startsWithAny ownedResourcePrefixes name := howned.1
    unfold sweepBucket
    rw [if_pos hname]
    apply removesOn_call
    intro before reply after ⟨hstep, _⟩ hthere
    apply removesOn_onReply
    · intro tags hreply
      have htags : tags = account.tags (.bucket name) := hstep.truthful tags hreply
      rw [if_pos (htags ▸ createdByIsvtest_of_tagged howned.2)]
      apply removesOn_call
      intro _ listing _ _ _
      apply removesOn_bind
      intro errors
      apply Removes.after
      apply Deletes.deleteOr
      exact deletes_call (.deleteBucket name) rfl (List.Subset.refl _)
        fun reply ↦ ⟨reply, rfl, rfl⟩
    · intro code text hreply
      split
      next hcode =>
        rw [hcode] at hreply
        have hnone := hstep.complete text hreply (hstep.shrinks hthere)
        have htagged := howned.2
        rw [Account.Tagged, hnone] at htagged
        exact absurd htagged List.not_mem_nil
      · exact removesOn_done (by simp)
  · intro _ _ _
    exact removesOn_done (by simp)

theorem removes_cleanupOwnedUser (name : String) :
    Removes account (.resource (.user name)) (cleanupOwnedUser name) := by
  apply removesOn_call
  intro _ keys _ _ _
  apply removesOn_bind
  intro keyErrors
  apply removesOn_call
  intro _ policies _ _ _
  apply removesOn_bind
  intro policyErrors
  apply Removes.after
  apply Deletes.callOr
  exact deletes_call (.deleteUser name) rfl (List.Subset.refl _)
    fun reply ↦ ⟨reply, rfl, rfl⟩

/-- A failed user stays in the report. -/
theorem returns_sweepUsers (users : List String) (sweep : UserSweep) :
    Returns (fun result ↦ result.failedResources = [] → sweep.failedResources = [])
      (sweepUsers sweep users) := by
  induction users generalizing sweep with
  | nil => exact .done fun h ↦ h
  | cons userName rest ih =>
    have huser : Returns (fun result ↦ result.failedResources = [] → sweep.failedResources = [])
        (sweepUser sweep userName) := by
      unfold sweepUser
      split
      · apply (Program.Within.all _).bind
        intro owned _
        split
        · apply (Program.Within.all _).bind
          intro errors _
          split
          · exact .done fun h ↦ h
          · exact .done (by simp)
        · exact .done fun h ↦ h
      · exact .done fun h ↦ h
    apply huser.bind
    intro result hresult
    exact (ih result).mono fun last hlast hempty ↦ hresult (hlast hempty)

/-- A user whose tag is not found is gone. -/
theorem removes_of_userHasIsvtestTag {name : String} (howned : account.Owned (.user name)) :
    RemovesOn account (.resource (.user name)) (· = false) (userHasIsvtestTag name) := by
  apply removesOn_call
  intro before listing after ⟨hstep, hsmooth⟩ hthere
  have hbefore := hstep.shrinks hthere
  have htag (h : ⟨"CreatedBy", "isvtest"⟩ ∈ listing.pages.flatten) :
      (listing.pages.flatten.any fun tag ↦ tag.key = "CreatedBy" && tag.value = "isvtest") = true :=
    List.any_eq_true.mpr ⟨_, h, by simp⟩
  split
  · exact removesOn_done (by simp)
  next hnone =>
    split
    next herror => exact absurd (htag (hstep.complete herror hbefore _ howned.2)) hnone
    next code text herror =>
      exact absurd (htag (hsmooth.reveals code text herror howned hbefore)) hnone
    · exact removesOn_raise _

theorem removes_sweepUser {name : String} (howned : account.Owned (.user name)) (sweep : UserSweep) :
    RemovesOn account (.resource (.user name)) (fun result ↦ result.failedResources = [])
      (sweepUser sweep name) := by
  have hname : startsWithAny ownedUserPrefixes name := howned.1
  unfold sweepUser
  rw [if_pos hname]
  apply (removes_of_userHasIsvtestTag howned).bind_or
  intro owned
  cases owned with
  | false => exact .inl (.done fun _ ↦ rfl)
  | true =>
    apply Or.inr
    apply (removes_cleanupOwnedUser name).bind
    intro errors
    split
    next hnone => exact .done fun _ ↦ hnone
    · exact .done (by simp)

theorem removes_user {name : String} (howned : account.Owned (.user name)) :
    RemovesOn account (.resource (.user name)) (fun result ↦ result.failedResources = [])
      sweepIamUsers := by
  apply removesOn_call
  intro before listing after ⟨hstep, _⟩ hthere
  have hsweep (users : List String) (hmem : name ∈ users) (sweep : UserSweep) :
      RemovesOn account (.resource (.user name)) (fun result ↦ result.failedResources = [])
        (sweepUsers sweep users) := by
    induction users generalizing sweep with
    | nil => exact absurd hmem List.not_mem_nil
    | cons userName rest ih =>
      rcases List.mem_cons.mp hmem with heq | hrest
      · subst heq
        exact (removes_sweepUser howned sweep).bind fun result ↦ returns_sweepUsers rest result
      · exact removesOn_bind fun result ↦ ih hrest result
  cases herror : listing.error with
  | none =>
    have hmem := hstep.complete herror name (hstep.shrinks hthere)
    exact (hsweep _ hmem {}).bind fun _ ↦ .done fun h ↦ h
  | some error => exact removesOn_bind fun _ ↦ removesOn_raise error

end IsvValidation.Security
