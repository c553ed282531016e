import IsvValidation.Storage.QuotaProbe

/-!
# Which volume a handle stands for

The volume of a claim is looked up by the handle of its persistent volume. Where the provider does not know
the handle itself, the first volume of the listing counts which has this handle, or a path at the end of it.
Which one is first depends on the listing as soon as there are two of them.
-/

namespace IsvValidation.Storage.QuotaProbe

open Check Host Library

/-! ## Volumes of a handle -/

variable {handle : String} {volumes order : List Volume} {volume other : Volume}

/-- The handle of the volume, as the driver knows it, is the one which is looked up. -/
def HasHandle (handle : String) (volume : Volume) : Prop := volume.csiHandle = some handle

/-- A volume by which the lookup ends: it has the handle, or its path is at the end of the handle. -/
def EndsLookup (handle : String) (volume : Volume) : Prop :=
  HasHandle handle volume ∨ (textOr volume.path "\x00").toList <:+ handle.toList

/-- The path of the volume is the last components of the handle. -/
def WholeSuffix (handle : String) (volume : Volume) : Prop :=
  ∃ path front, volume.path = some path ∧ path ≠ "" ∧ front ++ path.toList = handle.toList ∧
    (front = [] ∨ path.toList.head? = some '/' ∨ front.getLast? = some '/')

/-- The condition of the loop. -/
def endsLookup (handle : String) (volume : Volume) : Bool :=
  decide (volume.csiHandle = some handle) || (textOr volume.path "\x00").toList.isSuffixOf handle.toList

theorem matchVolume_eq : matchVolume handle volumes = volumes.find? (endsLookup handle) := rfl

theorem endsLookup_iff : endsLookup handle volume = true ↔ EndsLookup handle volume := by
  rw [endsLookup, Bool.or_eq_true, decide_eq_true_eq, List.isSuffixOf_iff_suffix]
  rfl

/-- A path of whole components is one by which the lookup ends. -/
theorem WholeSuffix.endsLookup (h : WholeSuffix handle volume) : EndsLookup handle volume := by
  obtain ⟨path, front, hpath, hne, happend, -⟩ := h
  have htext : textOr volume.path "\x00" = path := by
    rw [textOr, hpath, Option.filter_some, if_pos (by simpa using hne), Option.getD_some]
  rw [EndsLookup, htext]
  exact .inr ⟨front, happend⟩

/-! ## What a listing decides -/

/-- The volume a handle should stand for: the one with this handle, or else one whose path is the last
components of the handle, when there is no second one. -/
structure Right (handle : String) (volumes : List Volume) (result : Except String Volume) : Prop where
  exact : ∀ volume ∈ volumes, HasHandle handle volume → result = .ok volume
  suffix : (∀ volume ∈ volumes, ¬ HasHandle handle volume) → ∀ volume, result = .ok volume →
    volume ∈ volumes ∧ WholeSuffix handle volume ∧ ∀ other ∈ volumes, WholeSuffix handle other → other = volume

/-- The lookup can end by one volume only, by its handle or by whole components of it. -/
structure Unmistakable (handle : String) (volumes : List Volume) : Prop where
  single : ∀ volume ∈ volumes, ∀ other ∈ volumes, EndsLookup handle volume → EndsLookup handle other →
    volume = other
  whole : ∀ volume ∈ volumes, EndsLookup handle volume → HasHandle handle volume ∨ WholeSuffix handle volume

/-- A provider which does not know the handle, and lists these volumes. -/
def Inventory (order : List Volume) : (call : Call) → Reply call → Prop
  | .getVolume _ _, reply => ∃ error : ApiError, reply = .error error ∧ error.isStorageApi = true
  | .listVolumes _ _, reply => reply = .ok order
  | _, _ => True

/-- The run of a lookup ends with what the listing decides. -/
theorem execution_resolveHandle_iff {provider : Provider} {outcome : Except ApiError (Except String Volume)} :
    (∃ trace, Execution (fun (_ : Unit) call reply _ ↦ Inventory order call reply) ()
      (resolveHandle provider handle) trace () outcome) ↔ outcome = .ok (resolved handle order) := by
  constructor
  · rintro ⟨trace, hrun⟩
    rw [resolveHandle, Execution.call_iff] at hrun
    obtain ⟨direct, middle, rest, ⟨error, rfl, herror⟩, -, hrest⟩ := hrun
    simp only [herror, Bool.not_true, Bool.false_eq_true, if_false] at hrest
    rw [Execution.call_iff] at hrest
    obtain ⟨listing, middle, rest, rfl, -, hlast⟩ := hrest
    rw [Execution.done_iff] at hlast
    exact hlast.2.2
  · rintro rfl
    have hdirect : Inventory order (.getVolume ⟨provider.name, handle⟩ provider.tenantId)
        (.error (.notFound "")) := ⟨_, rfl, rfl⟩
    have hlisting : Inventory order (.listVolumes provider.name provider.tenantId) (.ok order) := rfl
    exact ⟨_, Execution.call_iff.mpr ⟨_, (), _, hdirect, rfl,
      Execution.call_iff.mpr ⟨_, (), [], hlisting, rfl, .done () (resolved handle order)⟩⟩⟩

/-- The volume which is found ends the lookup. -/
theorem endsLookup_of_resolved (h : resolved handle order = .ok volume) :
    volume ∈ order ∧ EndsLookup handle volume := by
  rw [resolved] at h
  cases hfound : matchVolume handle order with
  | none =>
    rw [hfound] at h
    cases h
  | some found =>
    rw [hfound] at h
    cases h
    rw [matchVolume_eq] at hfound
    exact ⟨List.mem_of_find?_eq_some hfound, endsLookup_iff.mp (List.find?_some hfound)⟩

theorem resolved_eq_iff : resolved handle order = resolved handle volumes ↔
    matchVolume handle order = matchVolume handle volumes := by
  rw [resolved, resolved]
  cases matchVolume handle order <;> cases matchVolume handle volumes <;> simp

/-- A volume by which the lookup can end is found where no other one can be. -/
theorem resolved_of_single (hsingle : ∀ volume ∈ volumes, ∀ other ∈ volumes, EndsLookup handle volume →
    EndsLookup handle other → volume = other) (hmem : volume ∈ volumes) (h : EndsLookup handle volume) :
    resolved handle volumes = .ok volume := by
  rw [resolved]
  cases hfound : matchVolume handle volumes with
  | none => exact absurd (endsLookup_iff.mpr h) (List.find?_eq_none.mp hfound volume hmem)
  | some found =>
    rw [matchVolume_eq] at hfound
    have hends := endsLookup_iff.mp (List.find?_some hfound)
    rw [hsingle found (List.mem_of_find?_eq_some hfound) volume hmem hends h]

/-- The lookup gives the right volume, the same for every order of the listing, exactly where the handle is
unmistakable in it. -/
theorem resolveHandle_right_iff (provider : Provider) (handle : String) (volumes : List Volume) :
    (∃ result, Right handle volumes result ∧ ∀ order : List Volume, order.Perm volumes → ∀ trace outcome,
      Execution (fun (_ : Unit) call reply _ ↦ Inventory order call reply) () (resolveHandle provider handle)
        trace () outcome → outcome = .ok result) ↔ Unmistakable handle volumes := by
  have hevery : ∀ result, (∀ order : List Volume, order.Perm volumes → ∀ trace outcome,
      Execution (fun (_ : Unit) call reply _ ↦ Inventory order call reply) () (resolveHandle provider handle)
        trace () outcome → outcome = .ok result) ↔
      ∀ order : List Volume, order.Perm volumes → resolved handle order = result := by
    intro result
    refine forall_congr' fun order ↦ forall_congr' fun _ ↦ ?_
    constructor
    · intro h
      obtain ⟨trace, hrun⟩ := execution_resolveHandle_iff.mpr rfl
      exact Except.ok.inj (h trace _ hrun)
    · intro h trace outcome hrun
      rw [← h]
      exact execution_resolveHandle_iff.mp ⟨trace, hrun⟩
  constructor
  · rintro ⟨result, hright, hruns⟩
    rw [hevery] at hruns
    have hhere := hruns volumes (List.Perm.refl volumes)
    have hperm := find?_perm_iff.mp fun order hperm ↦
      resolved_eq_iff.mp ((hruns order hperm).trans hhere.symm)
    have hsingle : ∀ volume ∈ volumes, ∀ other ∈ volumes, EndsLookup handle volume →
        EndsLookup handle other → volume = other := fun volume hmem other hother hends hends' ↦
      hperm volume hmem other hother (endsLookup_iff.mpr hends) (endsLookup_iff.mpr hends')
    refine ⟨hsingle, fun volume hmem hends ↦ ?_⟩
    have hresult : result = .ok volume := hhere.symm.trans (resolved_of_single hsingle hmem hends)
    by_cases hexact : ∃ other ∈ volumes, HasHandle handle other
    · obtain ⟨other, hother, hhandle⟩ := hexact
      rw [hsingle volume hmem other hother hends (.inl hhandle)]
      exact .inl hhandle
    · have hnone : ∀ other ∈ volumes, ¬ HasHandle handle other := fun other hother hhandle ↦
        hexact ⟨other, hother, hhandle⟩
      exact .inr (hright.suffix hnone volume hresult).2.1
  · intro h
    refine ⟨resolved handle volumes, ⟨?_, ?_⟩, ?_⟩
    · exact fun volume hmem hhandle ↦ resolved_of_single h.single hmem (.inl hhandle)
    · intro hnone volume hresult
      obtain ⟨hmem, hends⟩ := endsLookup_of_resolved hresult
      refine ⟨hmem, (h.whole volume hmem hends).resolve_left (hnone volume hmem), ?_⟩
      intro other hother hwhole
      exact h.single other hother volume hmem hwhole.endsLookup hends
    · rw [hevery]
      intro order hperm
      rw [resolved_eq_iff]
      refine find?_perm_iff.mpr (fun volume hmem other hother hends hends' ↦ ?_) order hperm
      exact h.single volume hmem other hother (endsLookup_iff.mp hends) (endsLookup_iff.mp hends')

/-- The first volume has a path at the end of the handle of the second one. -/
theorem resolveHandle_shadowed :
    let volumes : List Volume := [{ tenantId := "t", id := "1", csiHandle := some "csi-1", path := some "data" },
      { tenantId := "t", id := "2", csiHandle := some "pool/mydata", path := some "/mnt" }]
    (resolved "pool/mydata" volumes).toOption.map Volume.id = some "1" ∧
      ¬ ∃ result, Right "pool/mydata" volumes result ∧ ∀ order : List Volume, order.Perm volumes →
        ∀ trace outcome, Execution (fun (_ : Unit) call reply _ ↦ Inventory order call reply) ()
          (resolveHandle { name := "p", volumeType := "FILE" } "pool/mydata") trace () outcome →
            outcome = .ok result := by
  intro volumes
  refine ⟨rfl, ?_⟩
  rintro ⟨result, hright, hruns⟩
  obtain ⟨trace, hrun⟩ := execution_resolveHandle_iff.mpr rfl
  have hresult := Except.ok.inj (hruns volumes (List.Perm.refl volumes) trace _ hrun)
  have hexact := hright.exact _ (List.mem_cons_of_mem _ List.mem_cons_self) rfl
  have hids := congrArg (fun found : Except String Volume ↦ found.toOption.map Volume.id) (hresult.trans hexact)
  revert hids
  decide

end IsvValidation.Storage.QuotaProbe
