import Mathlib.Algebra.Order.BigOperators.Group.List
import Mathlib.Order.Bounds.Basic
import IsvValidation.Storage.Mock

/-!
# What the quota store keeps

Over any sequence of requests the volumes of a tenant stay within its limit, no two directory quotas
of a volume share the natural key and no two user quotas the user. A record which has been set is
found under its natural key with its byte cap rounded up, setting it again changes nothing, and a
request which raises leaves the store as it is.
-/

namespace IsvValidation.Storage

open Library

/-! ## Rounding -/

/-- The byte cap kept for one asked for: the least multiple of the granularity which is not smaller, or
which is not smaller than their sum less one where the granularity is negative. -/
def Rounded (granularity bytes stored : Option ℤ) : Prop :=
  match granularity, bytes with
  | some granularity, some bytes =>
    granularity ≠ 0 ∧ ∃ rounded, stored = some rounded ∧
      IsLeast {multiple | granularity ∣ multiple ∧
        (if 0 < granularity then bytes else bytes + granularity - 1) ≤ multiple} rounded
  | _, _ => stored = bytes

/-- The caps kept for those asked for. -/
def Kept (granularity : Option ℤ) (inodes : Bool) : Option QuotaLimits → Option QuotaLimits → Prop
  | none, stored => stored = none
  | some asked, stored => ∃ bytes, Rounded granularity asked.bytes bytes ∧
    stored = some { bytes, inodes := if inodes then asked.inodes else none }

theorem isLeast_roundUp {granularity : ℤ} (h : 0 < granularity) (bytes : ℤ) :
    IsLeast {multiple | granularity ∣ multiple ∧ bytes ≤ multiple}
      ((bytes + granularity - 1).fdiv granularity * granularity) := by
  rw [Int.fdiv_eq_ediv_of_nonneg _ h.le]
  have hbelow := Int.ediv_mul_le (bytes + granularity - 1) h.ne'
  have habove := Int.lt_ediv_add_one_mul_self (bytes + granularity - 1) h
  refine ⟨⟨Int.dvd_mul_left .., ?_⟩, ?_⟩
  · rw [Int.add_mul, Int.one_mul] at habove
    omega
  · rintro multiple ⟨⟨factor, rfl⟩, hbytes⟩
    rw [Int.mul_comm]
    apply Int.mul_le_mul_of_nonneg_left _ h.le
    by_contra hlt
    have hmul := (Int.le_ediv_iff_mul_le h).mp (Int.not_le.mp hlt)
    rw [Int.add_mul, Int.one_mul, Int.mul_comm] at hmul
    omega

/-- Floor division by a negative number rounds its dividend up to a multiple. -/
theorem isLeast_fdiv_mul {granularity : ℤ} (h : granularity < 0) (bound : ℤ) :
    IsLeast {multiple | granularity ∣ multiple ∧ bound ≤ multiple}
      (bound.fdiv granularity * granularity) := by
  have hpos : 0 < -granularity := by omega
  have hfdiv : bound.fdiv granularity = (-bound) / (-granularity) := by
    rw [← Int.neg_fdiv_neg, Int.fdiv_eq_ediv_of_nonneg _ hpos.le]
  rw [hfdiv]
  refine ⟨⟨Int.dvd_mul_left .., ?_⟩, ?_⟩
  · have hbelow := Int.ediv_mul_le (-bound) hpos.ne'
    rw [Int.mul_neg] at hbelow
    omega
  · rintro multiple ⟨⟨factor, rfl⟩, hbound⟩
    have hfactor : factor ≤ (-bound) / (-granularity) := by
      rw [Int.le_ediv_iff_mul_le hpos, Int.mul_neg, Int.mul_comm]
      omega
    rw [Int.mul_comm]
    exact Int.mul_le_mul_of_nonpos_left h.le hfactor

theorem kept_normalizeQuotaHard {hard newHard : Option QuotaLimits} {granularity : Option ℤ}
    {inodes : Bool} (h : MockCore.normalizeQuotaHard hard granularity inodes = .ok newHard) :
    Kept granularity inodes hard newHard := by
  unfold MockCore.normalizeQuotaHard at h
  cases hard with
  | none =>
    cases h
    rfl
  | some limits =>
    obtain ⟨bytes, inodes⟩ := limits
    cases bytes with
    | none =>
      cases h
      cases granularity <;> exact ⟨none, rfl, rfl⟩
    | some bytes =>
      cases granularity with
      | none =>
        cases h
        exact ⟨some bytes, rfl, rfl⟩
      | some granularity =>
        simp only at h
        split at h
        · cases h
        · rename_i hne
          cases h
          refine ⟨_, ⟨hne, _, rfl, ?_⟩, rfl⟩
          split
          · rename_i hpos
            exact isLeast_roundUp hpos bytes
          · exact isLeast_fdiv_mul (by omega) _

/-! ## Records with a key -/

section Upsert

variable {α ι : Type} [DecidableEq ι] {key : α → ι} {stored : α}

theorem map_upsert (records : List α) :
    (MockCore.upsert (fun record ↦ key record = key stored) stored records).map key =
      if key stored ∈ records.map key then records.map key
      else records.map key ++ [key stored] := by
  induction records with
  | nil => rfl
  | cons record rest ih =>
    by_cases h : key record = key stored
    · simp [MockCore.upsert, h]
    · have hne : key stored ≠ key record := fun heq ↦ h heq.symm
      simp only [MockCore.upsert, h, decide_false, Bool.false_eq_true, if_false, List.map_cons, ih,
        List.mem_cons, hne, false_or]
      split <;> rfl

theorem nodup_upsert {records : List α} (h : (records.map key).Nodup) :
    ((MockCore.upsert (fun record ↦ key record = key stored) stored records).map key).Nodup := by
  rw [map_upsert]
  split
  · exact h
  · rename_i hnot
    apply h.append (List.nodup_singleton _)
    exact List.disjoint_singleton.mpr hnot

end Upsert

variable {α : Type} {p : α → Bool} {stored : α}

theorem find?_upsert (h : p stored = true) (records : List α) :
    (MockCore.upsert p stored records).find? p = some stored := by
  induction records with
  | nil => simp [MockCore.upsert, h]
  | cons record rest ih =>
    by_cases hrecord : p record = true
    · simp [MockCore.upsert, hrecord, h]
    · simp [MockCore.upsert, hrecord, ih]

theorem upsert_upsert (h : p stored = true) (records : List α) :
    MockCore.upsert p stored (MockCore.upsert p stored records) =
      MockCore.upsert p stored records := by
  induction records with
  | nil => simp [MockCore.upsert, h]
  | cons record rest ih =>
    by_cases hrecord : p record = true
    · simp [MockCore.upsert, hrecord, h]
    · simp [MockCore.upsert, hrecord, ih]

/-! ## Volumes of a tenant -/

section Volumes

variable {tenantId key : String} {volume : Volume}

theorem used_setEntry_le (h : 0 ≤ volume.sizeBytes) {entries : List (String × Volume)}
    (hentries : ∀ entry ∈ entries, 0 ≤ entry.2.sizeBytes) :
    ((((OrderedMap.setEntry key volume entries).map Prod.snd).filter fun held ↦
        held.tenantId = tenantId).map Volume.sizeBytes).sum ≤
      (((entries.map Prod.snd).filter fun held ↦ held.tenantId = tenantId).map
        Volume.sizeBytes).sum + volume.sizeBytes := by
  induction entries with
  | nil => by_cases hown : volume.tenantId = tenantId <;> simp [OrderedMap.setEntry, hown, h]
  | cons entry rest ih =>
    have hentry := hentries entry List.mem_cons_self
    have hrest := ih fun other hother ↦ hentries other (List.mem_cons_of_mem _ hother)
    rw [OrderedMap.setEntry]
    by_cases hkey : entry.1 = key
    · by_cases hown : volume.tenantId = tenantId <;> by_cases hheld : entry.2.tenantId = tenantId <;>
        simp [hkey, hown, hheld] <;> omega
    · by_cases hheld : entry.2.tenantId = tenantId
      · simp only [hkey, hheld, if_false, List.map_cons, List.filter_cons, decide_true, if_true,
          List.sum_cons]
        omega
      · simpa [hkey, hheld] using hrest

theorem used_insert_le (h : 0 ≤ volume.sizeBytes) {volumes : OrderedMap String Volume}
    (hvolumes : ∀ held ∈ volumes.values, 0 ≤ held.sizeBytes) :
    MockCore.used (volumes.insert key volume) tenantId ≤
      MockCore.used volumes tenantId + volume.sizeBytes :=
  used_setEntry_le h fun entry hentry ↦ hvolumes entry.2 (List.mem_map_of_mem hentry)

theorem used_filterKeys_le {volumes : OrderedMap String Volume}
    (hvolumes : ∀ held ∈ volumes.values, 0 ≤ held.sizeBytes) (p : String → Bool) :
    MockCore.used (volumes.filterKeys p) tenantId ≤ MockCore.used volumes tenantId := by
  apply List.Sublist.sum_le_sum
  · exact ((List.filter_sublist.map Prod.snd).filter _).map Volume.sizeBytes
  · intro size hsize
    obtain ⟨held, hheld, rfl⟩ := List.mem_map.mp hsize
    exact hvolumes held (List.mem_of_mem_filter hheld)

end Volumes

/-! ## The invariant -/

namespace MockCore

variable (core : MockCore)

/-- What holds of the store between requests. -/
structure Sound (store : Store) : Prop where
  sizes : ∀ volume ∈ store.volumes.values, 0 ≤ volume.sizeBytes
  withinLimit : used store.volumes core.defaultTenant ≤ core.hardLimitBytes
  directories : ∀ place records, store.directoryQuotas.get? place = some records →
    (records.map core.naturalKey).Nodup
  users : ∀ place inner, store.userQuotas.get? place = some inner →
    ∀ entry ∈ inner.entries, entry.2.user = entry.1

variable {core} {store : Store}

theorem sound_empty (h : 0 ≤ core.hardLimitBytes) : core.Sound {} where
  sizes := fun _ hvolume ↦ absurd hvolume List.not_mem_nil
  withinLimit := h
  directories := fun _ _ hget ↦ nomatch hget
  users := fun _ _ hget ↦ nomatch hget

theorem Sound.nodup_users (h : core.Sound store) {place : String × String}
    {inner : OrderedMap (Option String) UserQuota}
    (hinner : store.userQuotas.get? place = some inner) :
    (inner.values.map UserQuota.user).Nodup := by
  have heq : inner.values.map UserQuota.user = inner.keys := by
    rw [OrderedMap.values, OrderedMap.keys, List.map_map]
    exact List.map_congr_left (h.users place inner hinner)
  rw [heq]
  exact inner.nodup_keys

theorem Sound.insert_volume (h : core.Sound store) {key : String} {volume : Volume}
    (hsize : 0 ≤ volume.sizeBytes)
    (hlimit : used (store.volumes.insert key volume) core.defaultTenant ≤ core.hardLimitBytes) :
    core.Sound { store with volumes := store.volumes.insert key volume } where
  sizes := by
    intro held hheld
    obtain ⟨entry, hentry, rfl⟩ := List.mem_map.mp hheld
    rcases OrderedMap.mem_entries_insert hentry with rfl | hold
    · exact hsize
    · exact h.sizes _ (List.mem_map_of_mem hold)
  withinLimit := hlimit
  directories := h.directories
  users := h.users

theorem Sound.insert_directory (h : core.Sound store) (place : String × String)
    {records : List DirectoryQuota} (hrecords : (records.map core.naturalKey).Nodup) :
    core.Sound { store with directoryQuotas := store.directoryQuotas.insert place records } where
  sizes := h.sizes
  withinLimit := h.withinLimit
  directories := by
    intro other held hget
    rw [OrderedMap.get?_insert] at hget
    split at hget
    · exact Option.some.inj hget ▸ hrecords
    · exact h.directories other held hget
  users := h.users

theorem Sound.insert_user (h : core.Sound store) (place : String × String)
    {inner : OrderedMap (Option String) UserQuota}
    (hinner : ∀ entry ∈ inner.entries, entry.2.user = entry.1) :
    core.Sound { store with userQuotas := store.userQuotas.insert place inner } where
  sizes := h.sizes
  withinLimit := h.withinLimit
  directories := h.directories
  users := by
    intro other held hget
    rw [OrderedMap.get?_insert] at hget
    split at hget
    · exact Option.some.inj hget ▸ hinner
    · exact h.users other held hget

theorem Sound.records (h : core.Sound store) (place : String × String) :
    (((store.directoryQuotas.get? place).getD []).map core.naturalKey).Nodup := by
  cases hget : store.directoryQuotas.get? place with
  | none => exact List.nodup_nil
  | some records => exact h.directories place records hget
/-! ## One request -/

theorem eq_of_resolveTenant {tenantId : Option String} {resolved : String}
    (h : core.resolveTenant tenantId = .ok resolved) : resolved = core.defaultTenant := by
  simp only [resolveTenant] at h
  split at h
  · cases h
  · rename_i heq
    rw [← Except.ok.inj h]
    exact not_not.mp heq

/-- What setting a directory quota does when it does not raise. -/
structure DirectorySet (core : MockCore) (store : Store) (uuid : String)
    (quota stored : DirectoryQuota) (after : Store) : Prop where
  resolved : core.resolveTenant (some quota.tenantId) = .ok stored.tenantId
  caller : ¬ (core.idAssignment = some "caller" ∧ quota.id = none)
  backend : ¬ (core.idAssignment = some "backend" ∧ quota.path = none)
  hard : (core.directoryGranularity.bind fun granularity ↦
    normalizeQuotaHard quota.hard granularity core.directoryInodes) = .ok stored.hard
  id : stored.id =
    core.recordId (records store stored.tenantId quota.volumeId) uuid quota
  rest : stored = { quota with
    tenantId := stored.tenantId, id := stored.id, hard := stored.hard, usage := {} }
  changed : after.directoryQuotas = store.directoryQuotas.insert (stored.tenantId, quota.volumeId)
    (upsert (core.sameKey quota) stored (records store stored.tenantId quota.volumeId))
  frame : after = { store with directoryQuotas := after.directoryQuotas }

theorem setDirectoryQuota_eq_ok {uuid : String} {quota stored : DirectoryQuota} {after : Store} :
    core.setDirectoryQuota store uuid quota = (.ok stored, after) ↔
      DirectorySet core store uuid quota stored after := by
  constructor
  · intro h
    unfold setDirectoryQuota at h
    split at h
    · cases h
    · rename_i resolved hresolved
      split at h
      · cases h
      · rename_i hcaller
        split at h
        · cases h
        · rename_i hbackend
          split at h
          · cases h
          · rename_i newHard hhard
            cases h
            exact ⟨hresolved, hcaller, hbackend, hhard, rfl, rfl, rfl, rfl⟩
  · intro h
    rw [h.frame, h.changed]
    unfold setDirectoryQuota
    simp only [h.resolved, if_neg h.caller, if_neg h.backend, h.hard, ← h.id, ← h.rest]

section DirectorySet

variable {uuid : String} {quota stored : DirectoryQuota} {after : Store}

/-- What is stored keeps the natural key of the request. -/
theorem DirectorySet.naturalKey_eq (h : DirectorySet core store uuid quota stored after) :
    core.naturalKey stored = core.naturalKey quota := by
  unfold naturalKey
  split
  · rename_i hcaller
    rw [h.id, recordId, hcaller]
    exact if_neg fun hbackend ↦ absurd hbackend.1 (by decide)
  · rw [h.rest]

theorem DirectorySet.sameKey_eq (h : DirectorySet core store uuid quota stored after) :
    core.sameKey quota = core.sameKey stored := by
  funext record
  rw [sameKey, sameKey, h.naturalKey_eq]

theorem DirectorySet.sameKey_stored (h : DirectorySet core store uuid quota stored after) :
    core.sameKey quota stored = true :=
  decide_eq_true h.naturalKey_eq

theorem DirectorySet.records_after (h : DirectorySet core store uuid quota stored after) :
    records after stored.tenantId quota.volumeId =
      upsert (core.sameKey quota) stored (records store stored.tenantId quota.volumeId) := by
  rw [records, h.changed, OrderedMap.get?_insert, if_pos rfl, Option.getD_some]

theorem DirectorySet.sound (h : DirectorySet core store uuid quota stored after)
    (hsound : core.Sound store) : core.Sound after := by
  rw [h.frame, h.changed]
  apply hsound.insert_directory
  rw [h.sameKey_eq]
  exact nodup_upsert (hsound.records _)

/-- Setting a record again changes nothing. -/
theorem DirectorySet.again (h : DirectorySet core store uuid quota stored after) (other : String) :
    DirectorySet core after other quota stored after where
  resolved := h.resolved
  caller := h.caller
  backend := h.backend
  hard := h.hard
  id := by
    rw [recordId, h.records_after, find?_upsert h.sameKey_stored]
    split
    · rfl
    · rename_i hgiven
      rw [h.id, recordId, if_neg hgiven]
  rest := h.rest
  changed := by
    rw [h.records_after, upsert_upsert h.sameKey_stored]
    symm
    apply OrderedMap.insert_of_get?
    rw [h.changed, OrderedMap.get?_insert, if_pos rfl]
  frame := rfl

end DirectorySet

/-- The natural key of a directory quota, as it is looked up. -/
def directoryKeys (core : MockCore) (quota : DirectoryQuota) : DirectoryQuotaKeys :=
  if core.idAssignment = some "caller" then
    { volumeId := quota.volumeId, tenantId := some quota.tenantId, id := quota.id }
  else { volumeId := quota.volumeId, tenantId := some quota.tenantId, path := quota.path }

theorem directoryKeys_volumeId (quota : DirectoryQuota) :
    (core.directoryKeys quota).volumeId = quota.volumeId := by
  unfold directoryKeys
  split <;> rfl

theorem directoryKeys_tenantId (quota : DirectoryQuota) :
    (core.directoryKeys quota).tenantId = some quota.tenantId := by
  unfold directoryKeys
  split <;> rfl

/-- Looking up the natural key is looking for a record with the same one. -/
theorem isFull_directoryKeys {quota : DirectoryQuota} (h : core.naturalKey quota ≠ none) :
    isFull (core.directoryKeys quota) = core.sameKey quota := by
  funext record
  unfold naturalKey at h
  unfold isFull directoryKeys sameKey naturalKey
  split
  · rename_i hcaller
    rw [if_pos hcaller] at h
    simp [h]
  · rename_i hcaller
    rw [if_neg hcaller] at h
    simp [h]

theorem directoryKeys_given {quota : DirectoryQuota} (h : core.naturalKey quota ≠ none) :
    ¬ ((core.directoryKeys quota).path = none ∧ (core.directoryKeys quota).id = none) := by
  unfold naturalKey at h
  unfold directoryKeys
  split
  · rename_i hcaller
    rw [if_pos hcaller] at h
    exact fun hnone ↦ h hnone.2
  · rename_i hcaller
    rw [if_neg hcaller] at h
    exact fun hnone ↦ h hnone.1

theorem DirectorySet.naturalKey_ne {uuid : String} {quota stored : DirectoryQuota} {after : Store}
    (h : DirectorySet core store uuid quota stored after)
    (mode : core.idAssignment = some "caller" ∨ core.idAssignment = some "backend") :
    core.naturalKey quota ≠ none := by
  unfold naturalKey
  rcases mode with hmode | hmode
  · rw [if_pos hmode]
    exact fun hnone ↦ h.caller ⟨hmode, hnone⟩
  · rw [if_neg (by rw [hmode]; decide)]
    exact fun hnone ↦ h.backend ⟨hmode, hnone⟩

/-- A record which has been set is what is found under its natural key. -/
theorem DirectorySet.get {uuid : String} {quota stored : DirectoryQuota} {after : Store}
    (h : DirectorySet core store uuid quota stored after)
    (mode : core.idAssignment = some "caller" ∨ core.idAssignment = some "backend") :
    core.getDirectoryQuota after (core.directoryKeys quota) = .ok stored := by
  have hkey := h.naturalKey_ne mode
  have hlist : core.listDirectoryQuotas after quota.volumeId (some quota.tenantId) =
      .ok (upsert (core.sameKey quota) stored
        (records store stored.tenantId quota.volumeId)) := by
    rw [listDirectoryQuotas, h.resolved, ← h.records_after]
    rfl
  unfold getDirectoryQuota
  rw [if_neg (directoryKeys_given hkey), directoryKeys_volumeId, directoryKeys_tenantId, hlist]
  simp only [isFull_directoryKeys hkey, bind, Except.bind, pure, Except.pure,
    find?_upsert h.sameKey_stored]

/-- What setting a user quota does when it does not raise. -/
structure UserSet (core : MockCore) (store : Store) (quota stored : UserQuota) (after : Store) :
    Prop where
  slot : core.lacksSlot quota.user = false
  resolved : core.resolveTenant (some quota.tenantId) = .ok stored.tenantId
  hard : (core.userGranularity.bind fun granularity ↦
    normalizeQuotaHard quota.hard granularity core.userInodes) = .ok stored.hard
  rest : stored = { quota with tenantId := stored.tenantId, hard := stored.hard, usage := {} }
  changed : after.userQuotas = store.userQuotas.insert (stored.tenantId, quota.volumeId)
    (((store.userQuotas.get? (stored.tenantId, quota.volumeId)).getD .empty).insert
      quota.user stored)
  frame : after = { store with userQuotas := after.userQuotas }

theorem setUserQuota_eq_ok {quota stored : UserQuota} {after : Store} :
    core.setUserQuota store quota = (.ok stored, after) ↔
      UserSet core store quota stored after := by
  constructor
  · intro h
    unfold setUserQuota at h
    split at h
    · cases h
    · rename_i hslot
      split at h
      · cases h
      · rename_i resolved hresolved
        split at h
        · cases h
        · rename_i newHard hhard
          cases h
          exact ⟨Bool.eq_false_iff.mpr hslot, hresolved, hhard, rfl, rfl, rfl⟩
  · intro h
    rw [h.frame, h.changed]
    unfold setUserQuota
    simp only [h.slot, Bool.false_eq_true, if_false, h.resolved, h.hard, ← h.rest]

/-- In a mapping whose keys are the users of its records, a record is found by its user. -/
theorem find?_values {inner : OrderedMap (Option String) UserQuota}
    (hkeyed : ∀ entry ∈ inner.entries, entry.2.user = entry.1) {user : Option String}
    {stored : UserQuota} (h : inner.get? user = some stored) :
    inner.values.find? (fun record ↦ record.user = user) = some stored := by
  cases hfind : inner.values.find? (fun record ↦ record.user = user) with
  | none =>
    have hmem := OrderedMap.mem_entries_iff.mpr h
    have hne := List.find?_eq_none.mp hfind stored (List.mem_map_of_mem hmem)
    exact absurd (decide_eq_true (hkeyed _ hmem)) hne
  | some record =>
    have huser : record.user = user := by simpa using List.find?_some hfind
    obtain ⟨entry, hentry, rfl⟩ := List.mem_map.mp (List.mem_of_find?_eq_some hfind)
    have hkey : entry.1 = user := (hkeyed entry hentry).symm.trans huser
    have hget : inner.get? entry.1 = some entry.2 := OrderedMap.mem_entries_iff.mp hentry
    rw [hkey, h] at hget
    exact hget.symm

section UserSet

variable {quota stored : UserQuota} {after : Store}

theorem UserSet.user_eq (h : UserSet core store quota stored after) :
    stored.user = quota.user := by
  rw [h.rest]

theorem UserSet.get?_after (h : UserSet core store quota stored after) :
    after.userQuotas.get? (stored.tenantId, quota.volumeId) =
      some (((store.userQuotas.get? (stored.tenantId, quota.volumeId)).getD .empty).insert
        quota.user stored) := by
  rw [h.changed, OrderedMap.get?_insert, if_pos rfl]

/-- Entries of the users of a volume after one of them has been set. -/
theorem UserSet.keyed (h : UserSet core store quota stored after) (hsound : core.Sound store) :
    ∀ entry ∈ (((store.userQuotas.get? (stored.tenantId, quota.volumeId)).getD .empty).insert
      quota.user stored).entries, entry.2.user = entry.1 := by
  intro entry hentry
  rcases OrderedMap.mem_entries_insert hentry with rfl | hold
  · exact h.user_eq
  · cases hinner : store.userQuotas.get? (stored.tenantId, quota.volumeId) with
    | none =>
      rw [hinner] at hold
      exact absurd hold List.not_mem_nil
    | some inner =>
      rw [hinner] at hold
      exact hsound.users _ inner hinner entry hold

theorem UserSet.sound (h : UserSet core store quota stored after) (hsound : core.Sound store) :
    core.Sound after := by
  rw [h.frame, h.changed]
  exact hsound.insert_user _ (h.keyed hsound)

/-- Setting a record again changes nothing. -/
theorem UserSet.again (h : UserSet core store quota stored after) :
    UserSet core after quota stored after where
  slot := h.slot
  resolved := h.resolved
  hard := h.hard
  rest := h.rest
  changed := by
    have hinner : (((store.userQuotas.get? (stored.tenantId, quota.volumeId)).getD .empty).insert
        quota.user stored).get? quota.user = some stored := by
      rw [OrderedMap.get?_insert, if_pos rfl]
    rw [h.get?_after, Option.getD_some, OrderedMap.insert_of_get? hinner]
    exact (OrderedMap.insert_of_get? h.get?_after).symm
  frame := rfl

/-- The user of a quota, as it is looked up. -/
def userKeys (quota : UserQuota) : UserQuotaKeys where
  volumeId := quota.volumeId
  tenantId := some quota.tenantId
  user := quota.user

/-- A record which has been set is what is found for its user. -/
theorem UserSet.get (h : UserSet core store quota stored after) (hsound : core.Sound store) :
    core.getUserQuota after (userKeys quota) = .ok stored := by
  have hlist : core.listUserQuotas after quota.volumeId (some quota.tenantId) =
      .ok (((store.userQuotas.get? (stored.tenantId, quota.volumeId)).getD .empty).insert
        quota.user stored).values := by
    rw [listUserQuotas, h.resolved]
    simp only [bind, Except.bind, h.get?_after, Option.getD_some, pure, Except.pure]
  have hkeyed := h.keyed hsound
  have hfind : (((store.userQuotas.get? (stored.tenantId, quota.volumeId)).getD .empty).insert
      quota.user stored).values.find? (fun record ↦ record.user = quota.user) = some stored := by
    have hget : (((store.userQuotas.get? (stored.tenantId, quota.volumeId)).getD .empty).insert
        quota.user stored).get? quota.user = some stored := by
      rw [OrderedMap.get?_insert, if_pos rfl]
    exact find?_values hkeyed hget
  unfold getUserQuota userKeys
  simp only [hlist, bind, Except.bind, hfind, pure, Except.pure]

end UserSet

/-! ## Any request -/

/-- An outcome which is an error comes with the store as it was. -/
def Unchanged {β : Type} (store : Store) (answer : Except MockError β × Store) : Prop :=
  ∀ error, answer.1 = .error error → answer.2 = store

theorem unchanged_error {β : Type} (error : MockError) :
    Unchanged store ((.error error, store) : Except MockError β × Store) :=
  fun _ _ ↦ rfl

theorem unchanged_ok {β : Type} (result : β) (after : Store) :
    Unchanged store (.ok result, after) :=
  fun _ h ↦ nomatch h

theorem Unchanged.map {β γ : Type} {answer : Except MockError β × Store}
    (h : Unchanged store answer) (f : β → γ) : Unchanged store (answer.map (Except.map f) id) := by
  intro error herror
  match answer, h, herror with
  | (.error error, _), h, _ => exact h error rfl

theorem unchanged_createVolume (uuid : String) (req : CreateVolumeRequest) :
    Unchanged store (core.createVolume store uuid req) := by
  unfold createVolume
  split
  · exact unchanged_error _
  · dsimp only
    split
    · exact unchanged_error _
    · exact unchanged_ok _ _

theorem unchanged_deleteVolume (req : DeleteVolumeRequest) :
    Unchanged store (core.deleteVolume store req) := by
  unfold deleteVolume
  split
  · exact unchanged_error _
  · exact unchanged_ok _ _

theorem unchanged_setDirectoryQuota (uuid : String) (quota : DirectoryQuota) :
    Unchanged store (core.setDirectoryQuota store uuid quota) := by
  unfold setDirectoryQuota
  repeat' split
  all_goals first | exact unchanged_error _ | exact unchanged_ok _ _

theorem unchanged_deleteDirectoryQuota (req : DirectoryQuotaKeys) :
    Unchanged store (core.deleteDirectoryQuota store req) := by
  unfold deleteDirectoryQuota
  dsimp only
  repeat' split
  all_goals first | exact unchanged_error _ | exact unchanged_ok _ _

theorem unchanged_setUserQuota (quota : UserQuota) :
    Unchanged store (core.setUserQuota store quota) := by
  unfold setUserQuota
  repeat' split
  all_goals first | exact unchanged_error _ | exact unchanged_ok _ _

theorem unchanged_deleteUserQuota (req : UserQuotaKeys) :
    Unchanged store (core.deleteUserQuota store req) := by
  unfold deleteUserQuota
  repeat' split
  all_goals first | exact unchanged_error _ | exact unchanged_ok _ _

/-- A request which raises leaves the store as it is. -/
theorem unchanged_handle (uuid : String) (request : MockRequest) :
    Unchanged store (core.handle store uuid request) := by
  cases request with
  | createVolume req => exact (unchanged_createVolume uuid req).map _
  | deleteVolume req => exact unchanged_deleteVolume req
  | setDirectoryQuota quota => exact (unchanged_setDirectoryQuota uuid quota).map _
  | deleteDirectoryQuota req => exact unchanged_deleteDirectoryQuota req
  | setUserQuota quota => exact (unchanged_setUserQuota quota).map _
  | deleteUserQuota req => exact unchanged_deleteUserQuota req

theorem Sound.createVolume (h : core.Sound store) {uuid : String} {req : CreateVolumeRequest}
    (hsize : 0 ≤ req.sizeBytes) : core.Sound (core.createVolume store uuid req).2 := by
  unfold MockCore.createVolume
  split
  · exact h
  · rename_i resolved hresolved
    dsimp only
    split
    · exact h
    · rename_i hfits
      rw [eq_of_resolveTenant hresolved] at hfits ⊢
      refine h.insert_volume hsize (le_trans (used_insert_le hsize h.sizes) ?_)
      exact Int.not_lt.mp hfits

theorem Sound.deleteVolume (h : core.Sound store) (req : DeleteVolumeRequest) :
    core.Sound (core.deleteVolume store req).2 := by
  unfold MockCore.deleteVolume
  split
  · exact h
  · exact {
      sizes := by
        intro volume hvolume
        apply h.sizes
        exact (List.filter_sublist.map Prod.snd).subset hvolume
      withinLimit := by
        apply le_trans
        · exact used_filterKeys_le h.sizes _
        · exact h.withinLimit
      directories := h.directories
      users := h.users }

theorem Sound.setDirectoryQuota (h : core.Sound store) (uuid : String) (quota : DirectoryQuota) :
    core.Sound (core.setDirectoryQuota store uuid quota).2 := by
  cases hset : core.setDirectoryQuota store uuid quota with
  | mk outcome after =>
    cases outcome with
    | error error =>
      have hsame := @unchanged_setDirectoryQuota core store uuid quota error
      rw [hset] at hsame
      rw [hsame rfl]
      exact h
    | ok stored => exact (setDirectoryQuota_eq_ok.mp hset).sound h

theorem Sound.deleteDirectoryQuota (h : core.Sound store) (req : DirectoryQuotaKeys) :
    core.Sound (core.deleteDirectoryQuota store req).2 := by
  unfold MockCore.deleteDirectoryQuota
  dsimp only
  repeat' split
  any_goals exact h
  apply h.insert_directory
  exact (h.records _).sublist (List.eraseP_sublist.map _)

theorem Sound.setUserQuota (h : core.Sound store) (quota : UserQuota) :
    core.Sound (core.setUserQuota store quota).2 := by
  cases hset : core.setUserQuota store quota with
  | mk outcome after =>
    cases outcome with
    | error error =>
      have hsame := @unchanged_setUserQuota core store quota error
      rw [hset] at hsame
      rw [hsame rfl]
      exact h
    | ok stored => exact (setUserQuota_eq_ok.mp hset).sound h

theorem Sound.deleteUserQuota (h : core.Sound store) (req : UserQuotaKeys) :
    core.Sound (core.deleteUserQuota store req).2 := by
  unfold MockCore.deleteUserQuota
  repeat' split
  any_goals exact h
  rename_i inner hinner
  apply h.insert_user
  intro entry hentry
  exact h.users _ inner hinner entry (List.mem_of_mem_filter hentry)

end MockCore

/-- A request asks for no negative size. -/
def MockRequest.SizeNonneg : MockRequest → Prop
  | .createVolume req => 0 ≤ req.sizeBytes
  | _ => True

namespace MockCore

variable {core : MockCore} {store : Store}

theorem Sound.handle (h : core.Sound store) (uuid : String) {request : MockRequest}
    (hsize : request.SizeNonneg) : core.Sound (core.handle store uuid request).2 := by
  cases request with
  | createVolume req => exact h.createVolume hsize
  | deleteVolume req => exact h.deleteVolume req
  | setDirectoryQuota quota => exact h.setDirectoryQuota uuid quota
  | deleteDirectoryQuota req => exact h.deleteDirectoryQuota req
  | setUserQuota quota => exact h.setUserQuota quota
  | deleteUserQuota req => exact h.deleteUserQuota req

theorem sound_run (hlimit : 0 ≤ core.hardLimitBytes) {requests : List (String × MockRequest)}
    (hsizes : ∀ request ∈ requests, request.2.SizeNonneg) : core.Sound (core.run requests) := by
  induction requests using List.reverseRecOn with
  | nil => exact sound_empty hlimit
  | append_singleton requests request ih =>
    have hbefore := ih fun other hother ↦ hsizes other (List.mem_append_left _ hother)
    have hlast := hsizes request (List.mem_append_right _ List.mem_cons_self)
    rw [run, List.foldl_append]
    exact hbefore.handle request.1 hlast

/-! ## The quota store -/

theorem kept_of_bind {hard newHard : Option QuotaLimits}
    {granularity : Except MockError (Option ℤ)} {inodes : Bool}
    (h : (granularity.bind fun value ↦ normalizeQuotaHard hard value inodes) = .ok newHard) :
    ∃ value, granularity = .ok value ∧ Kept value inodes hard newHard := by
  cases granularity with
  | error error => cases h
  | ok value => exact ⟨value, rfl, kept_normalizeQuotaHard h⟩

/-- The id a quota is kept under: the one given, or else that of the record it replaces, or a minted one. -/
structure KeepsId (core : MockCore) (before : Store) (uuid : String) (quota : DirectoryQuota)
    (id : Option String) : Prop where
  given : ∀ asked, quota.id = some asked → id = some asked
  replaced : quota.id = none → core.idAssignment = some "backend" →
    ∀ record ∈ records before core.defaultTenant quota.volumeId, record.path = quota.path → id = record.id
  minted : quota.id = none → core.idAssignment = some "backend" →
    (∀ record ∈ records before core.defaultTenant quota.volumeId, record.path ≠ quota.path) →
      id = some s!"dq-{uuid.take 8}"

/-- What is promised of a directory quota which has been set: it is the request with its caps as they are
kept, it is found under its natural key, and setting it again changes nothing. -/
structure KeepsDirectory (core : MockCore) (before : Store) (uuid : String)
    (quota stored : DirectoryQuota) (after : Store) : Prop where
  request : stored = { quota with
    tenantId := core.defaultTenant, id := stored.id, hard := stored.hard, usage := {} }
  id : KeepsId core before uuid quota stored.id
  kept : ∃ granularity, core.directoryGranularity = .ok granularity ∧
    Kept granularity core.directoryInodes quota.hard stored.hard
  found : core.getDirectoryQuota after (core.directoryKeys quota) = .ok stored
  again : ∀ uuid, core.setDirectoryQuota after uuid quota = (.ok stored, after)

/-- The same of a user quota. -/
structure KeepsUser (core : MockCore) (quota stored : UserQuota) (after : Store) : Prop where
  request : stored = { quota with tenantId := core.defaultTenant, hard := stored.hard, usage := {} }
  kept : ∃ granularity, core.userGranularity = .ok granularity ∧
    Kept granularity core.userInodes quota.hard stored.hard
  found : core.getUserQuota after (userKeys quota) = .ok stored
  again : core.setUserQuota after quota = (.ok stored, after)

/-- In a store without a natural key twice, the record which a quota replaces is any with its path. -/
theorem DirectorySet.keepsId {uuid : String} {quota stored : DirectoryQuota} {after : Store}
    (h : DirectorySet core store uuid quota stored after) (hsound : core.Sound store) :
    KeepsId core store uuid quota stored.id := by
  have htenant := eq_of_resolveTenant h.resolved
  have hid := h.id
  rw [recordId, htenant] at hid
  have hkeys : core.idAssignment = some "backend" → ∀ record : DirectoryQuota,
      core.sameKey quota record = true ↔ record.path = quota.path := by
    intro hbackend record
    rw [sameKey, naturalKey, naturalKey, hbackend, if_neg (by decide), if_neg (by decide), decide_eq_true_iff]
  constructor
  · intro asked hasked
    rwa [if_neg fun hnone ↦ by simp [hasked] at hnone, hasked] at hid
  · intro hnone hbackend record hrecord hpath
    rw [if_pos ⟨hbackend, hnone⟩] at hid
    cases hfind : (records store core.defaultTenant quota.volumeId).find? (core.sameKey quota) with
    | none => exact absurd ((hkeys hbackend record).mpr hpath) (List.find?_eq_none.mp hfind record hrecord)
    | some found =>
      rw [hfind] at hid
      have hfound : core.sameKey quota found = true := List.find?_some hfind
      have hsame : core.naturalKey found = core.naturalKey record :=
        (of_decide_eq_true hfound).trans
          (of_decide_eq_true ((hkeys hbackend record).mpr hpath)).symm
      rw [hid, List.inj_on_of_nodup_map (hsound.records _) (List.mem_of_find?_eq_some hfind) hrecord hsame]
  · intro hnone hbackend hnew
    have hfind : (records store core.defaultTenant quota.volumeId).find? (core.sameKey quota) = none := by
      rw [List.find?_eq_none]
      exact fun record hrecord hsame ↦ hnew record hrecord ((hkeys hbackend record).mp hsame)
    rwa [if_pos ⟨hbackend, hnone⟩, hfind] at hid

/-- What holds of a store, and of any request it is sent. -/
structure QuotaStore (core : MockCore) (store : Store) : Prop where
  withinLimit : used store.volumes core.defaultTenant ≤ core.hardLimitBytes
  directories : ∀ place records, store.directoryQuotas.get? place = some records →
    (records.map core.naturalKey).Nodup
  users : ∀ place inner, store.userQuotas.get? place = some inner →
    (inner.values.map UserQuota.user).Nodup
  setDirectory : ∀ uuid quota stored after,
    core.setDirectoryQuota store uuid quota = (.ok stored, after) →
      KeepsDirectory core store uuid quota stored after
  setUser : ∀ quota stored after, core.setUserQuota store quota = (.ok stored, after) →
    KeepsUser core quota stored after
  raises : ∀ uuid request error, (core.handle store uuid request).1 = .error error →
    (core.handle store uuid request).2 = store

/-- The quota store over any history: with ids assigned by the caller or by the backend, any granularity,
and sizes which are not negative, that is the limit and those of the volumes asked for. -/
theorem quotaStore_run (core : MockCore)
    (mode : core.idAssignment = some "caller" ∨ core.idAssignment = some "backend")
    (hlimit : 0 ≤ core.hardLimitBytes) (requests : List (String × MockRequest))
    (hsizes : ∀ request ∈ requests, request.2.SizeNonneg) :
    QuotaStore core (core.run requests) where
  withinLimit := (sound_run hlimit hsizes).withinLimit
  directories := (sound_run hlimit hsizes).directories
  users := fun _ _ hinner ↦ (sound_run hlimit hsizes).nodup_users hinner
  setDirectory := by
    intro uuid quota stored after h
    have hset := setDirectoryQuota_eq_ok.mp h
    exact {
      request := eq_of_resolveTenant hset.resolved ▸ hset.rest
      id := hset.keepsId (sound_run hlimit hsizes)
      kept := kept_of_bind hset.hard
      found := hset.get mode
      again := fun other ↦ setDirectoryQuota_eq_ok.mpr (hset.again other) }
  setUser := by
    intro quota stored after h
    have hset := setUserQuota_eq_ok.mp h
    exact {
      request := eq_of_resolveTenant hset.resolved ▸ hset.rest
      kept := kept_of_bind hset.hard
      found := hset.get (sound_run hlimit hsizes)
      again := setUserQuota_eq_ok.mpr hset.again }
  raises := fun uuid request error ↦ unchanged_handle uuid request error

/-- A quota as its caller names it. -/
def callerQuota : DirectoryQuota where
  tenantId := ""
  volumeId := "v"
  id := some "7"
  hard := some { bytes := some 5000 }

/-- A mock whose callers name the ids, with blocks of 4096 bytes for both kinds of quota. -/
def callerMock : MockCore where
  numerals := {
    lower := fun text ↦ text
    isSpace := fun c ↦ c == ' '
    isAlnum := Char.isAlphanum
    decimal := fun c ↦ if c.isDigit then some (c.toNat - '0'.toNat) else none }
  qualifiers := .ofList [("quota", .ofList [("byteGranularity", "4096")]),
    ("quota.directory", .ofList [("idAssignment", "caller")])]
  defaultTenant := "mock-tenant"
  hardLimitBytes := 10000
  singleBinding := by decide

theorem quotaStore_run_callerMock :
    (0 ≤ callerMock.hardLimitBytes ∧ callerMock.idAssignment = some "caller" ∧
      callerMock.directoryGranularity = .ok (some 4096)) ∧
      QuotaStore callerMock (callerMock.run
        [("a", .createVolume { sizeBytes := 9000, volumeType := "shared" }),
          ("b", .createVolume { sizeBytes := 2000, volumeType := "shared" }),
          ("c", .setDirectoryQuota callerQuota)]) := by
  have hmode : callerMock.idAssignment = some "caller" := by decide
  refine ⟨⟨by decide, hmode, by decide⟩, quotaStore_run callerMock (Or.inl hmode) (by decide) _ ?_⟩
  intro request hrequest
  simp only [List.mem_cons, List.not_mem_nil, or_false] at hrequest
  rcases hrequest with rfl | rfl | rfl
  · exact (by decide : (0 : ℤ) ≤ 9000)
  · exact (by decide : (0 : ℤ) ≤ 2000)
  · trivial

/-- With a granularity of minus one byte a cap of 5000 bytes is kept as one of 4998. -/
theorem cap_kept_smaller : ∃ stored after,
    { callerMock with qualifiers := .ofList [("quota", .ofList [("byteGranularity", "-1")]),
        ("quota.directory", .ofList [("idAssignment", "caller")])] }.setDirectoryQuota {} "c"
          callerQuota = (.ok stored, after) ∧
      stored.hard = some { bytes := some 4998 } ∧
        ¬ IsLeast {multiple : ℤ | -1 ∣ multiple ∧ 5000 ≤ multiple} 4998 := by
  refine ⟨_, _, rfl, by decide, fun hleast ↦ ?_⟩
  exact absurd hleast.1.2 (by decide)

example : (callerMock.setDirectoryQuota {} "c" callerQuota).1.toOption.map
    (fun stored ↦ (stored.tenantId, stored.hard)) =
      some ("mock-tenant", some { bytes := some 8192 }) := by decide

end MockCore

end IsvValidation.Storage
