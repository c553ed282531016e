import IsvValidation.Storage.DirectoryLookup
import IsvValidation.Storage.PagedQuotas

/-!
# Directory quotas of the WEKA provider

`set_directory_quota` and `delete_directory_quota` find a row by its normalised path and address it by
its inode; `get_directory_quota` is inherited and compares the path of the request as it is written.
The two agree on requests whose path is written without slashes around it.
-/

namespace IsvValidation.Storage

open Config Host Library

/-! ## Rows and paths -/

/-- What the provider reads of a row of the backend; an absent field is none or null. -/
structure QuotaRow where
  path : Option String := none
  quotaId : Json := .null
  inodeId : Json := .null
  hardLimitBytes : Option ℤ := none
  totalBytes : Option ℤ := none

/-- `text.strip("/")`. -/
def trim (text : String) : String :=
  .ofList ((text.toList.dropWhile (· == '/')).rdropWhile (· == '/'))

/-- `_norm_path`. -/
def normPath (path : String) : String :=
  let raw := trim path
  if raw = "" then "" else "/" ++ raw

/-- `text.lstrip("/")`. -/
def trimLeft (text : String) : String := .ofList (text.toList.dropWhile (· == '/'))

/-- Strings and values as Python reads and writes them. -/
structure WekaHost extends Unicode where
  str : Json → String

/-- `str(value or "")`. -/
def WekaHost.text (host : WekaHost) (value : Json) : String :=
  if value.truthy then host.str value else ""

/-- `_quota_id`. -/
def quotaId (host : WekaHost) (row : QuotaRow) : String :=
  let id := host.strip (host.text row.quotaId)
  if id ≠ "" then id else host.strip (host.text row.inodeId)

/-- `_quota_inode_id`. -/
def quotaInodeId (host : WekaHost) (row : QuotaRow) : String :=
  let inode := host.strip (host.text row.inodeId)
  if inode ≠ "" then inode else quotaId host row

/-- `_norm_path(row.get("path") or "")`. -/
def rowPath (row : QuotaRow) : String := normPath (row.path.getD "")

/-- `_hard_bytes`. -/
def hardBytes (limits : Option QuotaLimits) : ℤ := (limits.bind QuotaLimits.bytes).getD 0

/-- `WekaApi._directory_quota`. -/
def directoryQuota (host : WekaHost) (row : QuotaRow) (tenantId volumeId relPath : String) :
    DirectoryQuota where
  tenantId := tenantId
  volumeId := volumeId
  path := some relPath
  id := some (quotaId host row)
  hard := some { bytes := some (row.hardLimitBytes.getD 0) |>.filter (0 < ·) }
  usage := { bytes := some (row.totalBytes.getD 0) }

/-! ## The provider and its backend -/

/-- What a request to the provider raises: an error of the storage interface, or one of the API. -/
inductive WekaError where
  | storage (error : MockError)
  | api (message : String)

/-- The rows of a file system, and the requests which change them. The inode a path has is told as the
answer tells it; a row is stored under the inode it is put at. -/
structure WekaBackend (host : WekaHost) where
  resolvePath : List QuotaRow → String → Except WekaError Json
  put : List QuotaRow → String → ℤ → Except WekaError (Option QuotaRow) × List QuotaRow
  patch : List QuotaRow → String → ℤ → Except WekaError (Option QuotaRow) × List QuotaRow
  delete : List QuotaRow → String → Except WekaError Unit × List QuotaRow
  put_stores : ∀ {rows path inode hard answer after}, resolvePath rows path = .ok inode →
    (∀ row ∈ rows, rowPath row ≠ path) →
    put rows (host.text inode) hard = (.ok answer, after) →
    ∃ before row later, rows = before ++ later ∧ after = before ++ row :: later ∧
      rowPath row = path ∧ row.hardLimitBytes = some hard
  patch_stores : ∀ {rows inode hard answer after},
    patch rows inode hard = (.ok answer, after) → after = rows.map fun row ↦
      if quotaInodeId host row = inode then { row with hardLimitBytes := some hard } else row
  delete_removes : ∀ {rows row}, row ∈ rows → delete rows (quotaInodeId host row) =
    (.ok (), rows.filter fun other ↦ quotaInodeId host other ≠ quotaInodeId host row)

/-- A file system of the cluster, with the texts of its name and its uid. -/
structure Filesystem where
  name : String
  uid : String

/-- The provider; asking for the file systems may fail, but a request to the API is no conflict. -/
structure WekaApi where
  host : WekaHost
  organization : String
  filesystems : Except WekaError (List Filesystem)
  backend : WekaBackend host
  request_error : ∀ error message, filesystems = .error error → error ≠ .storage (.conflict message)

/-- `_fs_name_from_volume_id`. -/
def fsNameFromVolumeId (volumeId : String) : String :=
  if volumeId = "" then ""
  else if Text.startsWith volumeId "weka/v2/" then
    trim (.ofList (volumeId.toList.drop "weka/v2/".length))
  else if volumeId.toList.contains '/' then "" else volumeId

namespace WekaApi

variable (api : WekaApi)

/-- `WekaApi._resolve_tenant`. -/
def resolveTenant (tenantId : Option String) : Except WekaError String :=
  let resolved := tenantId.getD api.organization
  if resolved = "" then
    .error (.api "tenant_id is required (no default organization configured)")
  else if tenantId ≠ none ∧ tenantId ≠ some api.organization then
    .error (.storage (.notFound
      (s!"tenant_id={quoted tenantId} does not match this shim's configured organization " ++
        s!"{quoted api.organization}; declare a separate provider entry per tenant")))
  else .ok resolved

/-- `WekaApi._filesystem_for_volume`. -/
def filesystemForVolume (volumeId : String) : Except WekaError (Option Filesystem) := do
  let name := fsNameFromVolumeId volumeId
  if name = "" then return none
  return (← api.filesystems).find? fun fs ↦ fs.name = name

/-- `WekaApi._filesystem_uid_for_volume`. -/
def filesystemUidForVolume (volumeId : String) : Except WekaError String := do
  match ← api.filesystemForVolume volumeId with
  | none => throw (.storage (.notFound s!"volume {quoted volumeId} not found"))
  | some fs =>
    if fs.uid = "" then throw (.api s!"filesystem {quoted fs.name} missing uid")
    return fs.uid

/-- `WekaApi.list_directory_quotas`, over the rows of the file system. -/
def listDirectoryQuotas (rows : List QuotaRow) (volumeId : String) (tenantId : Option String) :
    Except WekaError (List DirectoryQuota) := do
  let tenant ← api.resolveTenant tenantId
  let _ ← api.filesystemUidForVolume volumeId
  return rows.filterMap fun row ↦
    if rowPath row = "" then none
    else some (directoryQuota api.host row tenant volumeId (trimLeft (rowPath row)))

/-- `get_directory_quota`, which the provider inherits. -/
def getDirectoryQuota (rows : List QuotaRow) (req : DirectoryQuotaKeys) :
    Except WekaError DirectoryQuota :=
  providerGetDirectoryQuota .storage (api.listDirectoryQuotas rows) req

/-- `WekaApi._find_directory_quota_by_path`. -/
def findDirectoryQuotaByPath (rows : List QuotaRow) (absPath : String) : Option QuotaRow :=
  rows.find? fun row ↦ rowPath row = normPath absPath

/-- `WekaApi._resolve_inode`. -/
def resolveInode (rows : List QuotaRow) (quotaPath : String) : Except WekaError String := do
  let inode := api.host.text (← api.backend.resolvePath rows (normPath quotaPath))
  if inode = "" then
    throw (.storage (.notFound s!"path {quoted quotaPath} not found on WEKA filesystem"))
  return inode

/-- How a set stores its limit: at the row of the path, or as a new one. -/
def putOrPatch (rows : List QuotaRow) (absPath : String) (hard : ℤ) :
    Except WekaError (Option QuotaRow) × List QuotaRow :=
  match findDirectoryQuotaByPath rows absPath with
  | some existing => api.backend.patch rows (quotaInodeId api.host existing) hard
  | none =>
    match api.resolveInode rows absPath with
    | .error error => (.error error, rows)
    | .ok inode => api.backend.put rows inode hard

/-- `WekaApi.set_directory_quota`. -/
def setDirectoryQuota (rows : List QuotaRow) (quota : DirectoryQuota) :
    Except WekaError DirectoryQuota × List QuotaRow :=
  match quota.path with
  | none =>
    (.error (.storage (.validation "directory quota path is required (id_assignment=backend)")), rows)
  | some path =>
    match api.resolveTenant (some quota.tenantId) with
    | .error error => (.error error, rows)
    | .ok tenantId =>
      match api.filesystemUidForVolume quota.volumeId with
      | .error error => (.error error, rows)
      | .ok _ =>
        let absPath := normPath path
        if absPath = "" then
          (.error (.storage (.validation
            s!"directory quota path must name a subdirectory of the volume, got {quoted path}")), rows)
        else
          let (answer, after) := api.putOrPatch rows absPath (hardBytes quota.hard)
          (answer.map fun stored ↦
            let stored := stored.getD {}
            let relPath := trimLeft (normPath ((stored.path.filter (· ≠ "")).getD absPath))
            directoryQuota api.host stored tenantId quota.volumeId relPath, after)

/-- `WekaApi.delete_directory_quota`. -/
def deleteDirectoryQuota (rows : List QuotaRow) (req : DirectoryQuotaKeys) :
    Except WekaError Unit × List QuotaRow :=
  if req.path = none ∧ req.id = none then
    (.error (.storage (.validation "delete_directory_quota requires at least one of path or id")), rows)
  else if req.path.any fun path ↦ normPath path = "" then
    (.error (.storage (.validation "directory quota path must name a subdirectory of the volume")),
      rows)
  else
    match api.resolveTenant req.tenantId with
    | .error error => (.error error, rows)
    | .ok _ =>
      match api.filesystemUidForVolume req.volumeId with
      | .error error => (.error error, rows)
      | .ok _ =>
        let target :=
          match req.path with
          | some path => findDirectoryQuotaByPath rows (normPath path)
          | none => rows.find? fun row ↦ some (quotaId api.host row) = req.id ∧ rowPath row ≠ ""
        match target with
        | none => (.ok (), rows)
        | some row =>
          if req.path ≠ none ∧ req.id ≠ none ∧ some (quotaId api.host row) ≠ req.id then
            (.error (.storage (.conflict
              (s!"directory quota key mismatch: path resolved to id {quoted (quotaId api.host row)}, " ++
                s!"requested id {quoted req.id}"))), rows)
          else api.backend.delete rows (quotaInodeId api.host row)

end WekaApi

/-! ## Normalised paths -/

section Paths

variable {path other : String}

theorem trimLeft_trim (path : String) : trimLeft (trim path) = trim path := by
  rw [trimLeft, trim, String.toList_ofList]
  congr 1
  rw [List.dropWhile_eq_self_iff]
  intro hpos hslash
  have hstart := List.rdropWhile_prefix (· == '/') (path.toList.dropWhile (· == '/'))
  rw [hstart.getElem hpos] at hslash
  exact List.dropWhile_eq_self_iff.mp (List.dropWhile_idempotent (· == '/') path.toList)
    (Nat.lt_of_lt_of_le hpos hstart.length_le) hslash

theorem trim_eq (path : String) :
    trim path = .ofList ((trimLeft path).toList.rdropWhile (· == '/')) := by
  rw [trim, trimLeft, String.toList_ofList]

theorem trim_trim (path : String) : trim (trim path) = trim path := by
  rw [trim_eq (trim path), trimLeft_trim, trim, String.toList_ofList, List.rdropWhile_idempotent]

theorem normPath_eq_iff : normPath path = normPath other ↔ trim path = trim other := by
  unfold normPath
  by_cases h : trim path = "" <;> by_cases hother : trim other = ""
  · simp [h, hother]
  · simp [h, hother, Ne.symm hother]
  · simp [h, hother]
  · simp [h, hother, String.append_right_inj]

theorem trim_normPath (path : String) : trim (normPath path) = trim path := by
  unfold normPath
  by_cases h : trim path = ""
  · rw [if_pos h, h]
    rfl
  · have hslash : trim ("/" ++ trim path) = trim (trim path) := by
      rw [trim, String.toList_append]
      rfl
    rw [if_neg h, hslash, trim_trim]

theorem normPath_normPath (path : String) : normPath (normPath path) = normPath path :=
  normPath_eq_iff.mpr (trim_normPath path)

theorem trimLeft_normPath (path : String) : trimLeft (normPath path) = trim path := by
  unfold normPath
  by_cases h : trim path = ""
  · rw [if_pos h, h]
    rfl
  · have hslash : trimLeft ("/" ++ trim path) = trimLeft (trim path) := by
      rw [trimLeft, String.toList_append]
      rfl
    rw [if_neg h, hslash, trimLeft_trim]

end Paths

/-! ## What the lookup finds -/

section Lookup

variable {ε : Type} {raised : MockError → ε}
  {list : String → Option String → Except ε (List DirectoryQuota)} {req : DirectoryQuotaKeys}
  {quotas : List DirectoryQuota}

theorem providerGet_found (hkeys : MockCore.NamesKey req)
    (hlist : list req.volumeId req.tenantId = .ok quotas) {record : DirectoryQuota}
    (h : quotas.find? (MockCore.isFull req) = some record) :
    providerGetDirectoryQuota raised list req = .ok record := by
  unfold providerGetDirectoryQuota
  rw [if_neg hkeys, hlist]
  simp only [bind, Except.bind, pure, Except.pure, matchDirectoryQuota, matchLoop_eq, h]

/-- Without a full match a record which agrees with one of two keys is a conflict. -/
theorem providerGet_failed (hkeys : MockCore.NamesKey req)
    (hlist : list req.volumeId req.tenantId = .ok quotas)
    (h : quotas.find? (MockCore.isFull req) = none) :
    ∃ message, providerGetDirectoryQuota raised list req = .error (raised
      (if quotas.any (MockCore.isPartial req) then .conflict message else .notFound message)) := by
  have hsome := MockCore.partialMatch_isSome h
  unfold providerGetDirectoryQuota
  rw [if_neg hkeys, hlist]
  simp only [bind, Except.bind, pure, Except.pure, matchDirectoryQuota, matchLoop_eq, h,
    Option.or_none]
  match hhalf : MockCore.partialMatch req quotas with
  | some half =>
    rw [hhalf, Option.isSome_some] at hsome
    rw [← hsome]
    exact ⟨_, rfl⟩
  | none =>
    rw [hhalf, Option.isSome_none] at hsome
    rw [← hsome]
    exact ⟨_, rfl⟩

end Lookup

/-- No two rows have the same normalised path, the same id or the same inode. -/
structure DistinctRows (host : WekaHost) (rows : List QuotaRow) : Prop where
  paths : (rows.map rowPath).Nodup
  ids : (rows.map (quotaId host)).Nodup
  inodes : (rows.map (quotaInodeId host)).Nodup

namespace WekaApi

variable {api : WekaApi} {rows : List QuotaRow} {req : DirectoryQuotaKeys} {tenant uid : String}

/-- The record of a row. -/
def recordOf (api : WekaApi) (tenant volumeId : String) (row : QuotaRow) : DirectoryQuota :=
  directoryQuota api.host row tenant volumeId (trim (row.path.getD ""))

/-- A row which is listed agrees with the keys of a request. -/
def RowAgrees (api : WekaApi) (req : DirectoryQuotaKeys) (row : QuotaRow) : Prop :=
  rowPath row ≠ "" ∧ (∀ path, req.path = some path → trim (row.path.getD "") = path) ∧
    ∀ id, req.id = some id → quotaId api.host row = id

theorem isFull_recordOf {row : QuotaRow} : MockCore.isFull req (api.recordOf tenant req.volumeId row) =
      true ↔ (∀ path, req.path = some path → trim (row.path.getD "") = path) ∧
        ∀ id, req.id = some id → quotaId api.host row = id := by
  rw [MockCore.isFull_iff]
  have hpath : (api.recordOf tenant req.volumeId row).path = some (trim (row.path.getD "")) := rfl
  have hid : (api.recordOf tenant req.volumeId row).id = some (quotaId api.host row) := rfl
  rw [hpath, hid]
  match req.path, req.id with
  | none, none => simp
  | none, some id => simp
  | some path, none => simp
  | some path, some id => simp

theorem filterMap_ite {α β : Type} {p : α → Prop} [DecidablePred p] {f : α → β} (items : List α) :
    items.filterMap (fun a ↦ if p a then none else some (f a)) =
      (items.filter fun a ↦ ¬ p a).map f := by
  induction items with
  | nil => rfl
  | cons a rest ih =>
    by_cases h : p a
    · simp [h, ih]
    · simp [h, ih]

theorem listDirectoryQuotas_eq (htenant : api.resolveTenant req.tenantId = .ok tenant)
    (huid : api.filesystemUidForVolume req.volumeId = .ok uid) :
    api.listDirectoryQuotas rows req.volumeId req.tenantId =
      .ok ((rows.filter fun row ↦ rowPath row ≠ "").map (api.recordOf tenant req.volumeId)) := by
  unfold listDirectoryQuotas
  rw [htenant, huid]
  simp only [bind, Except.bind, pure, Except.pure, Except.ok.injEq]
  rw [filterMap_ite]
  apply List.map_congr_left
  intro row _
  rw [recordOf, rowPath, trimLeft_normPath]

theorem find?_eq_of_unique {α : Type} {p : α → Bool} {items : List α} {item : α} (hmem : item ∈ items)
    (hitem : p item = true) (hunique : ∀ other ∈ items, p other = true → other = item) :
    items.find? p = some item := by
  match hfound : items.find? p with
  | none => exact absurd hitem (List.find?_eq_none.mp hfound item hmem)
  | some other =>
    rw [hunique other (List.mem_of_find?_eq_some hfound) (List.find?_some hfound)]

theorem listed_mem {row : QuotaRow} :
    row ∈ rows.filter (fun row ↦ rowPath row ≠ "") ↔ row ∈ rows ∧ rowPath row ≠ "" := by
  rw [List.mem_filter, decide_eq_true_iff]

/-- A row is found which alone agrees with the keys. -/
theorem get_of_agrees (hkeys : MockCore.NamesKey req)
    (htenant : api.resolveTenant req.tenantId = .ok tenant)
    (huid : api.filesystemUidForVolume req.volumeId = .ok uid) {row : QuotaRow} (hrow : row ∈ rows)
    (hagrees : RowAgrees api req row)
    (hunique : ∀ other ∈ rows, RowAgrees api req other → other = row) :
    api.getDirectoryQuota rows req = .ok (api.recordOf tenant req.volumeId row) := by
  apply providerGet_found hkeys (listDirectoryQuotas_eq htenant huid)
  rw [List.find?_map, Option.map_eq_some_iff]
  refine ⟨row, ?_, rfl⟩
  apply find?_eq_of_unique (listed_mem.mpr ⟨hrow, hagrees.1⟩)
  · exact isFull_recordOf.mpr hagrees.2
  · intro other hother hfull
    have ⟨hmem, hlisted⟩ := listed_mem.mp hother
    exact hunique other hmem ⟨hlisted, isFull_recordOf.mp hfull⟩

/-- A row which is listed agrees with one of two keys. -/
def RowHalf (api : WekaApi) (req : DirectoryQuotaKeys) (row : QuotaRow) : Prop :=
  rowPath row ≠ "" ∧ ∃ path id, req.path = some path ∧ req.id = some id ∧
    (trim (row.path.getD "") = path ∨ quotaId api.host row = id)

theorem isPartial_recordOf {row : QuotaRow} :
    MockCore.isPartial req (api.recordOf tenant req.volumeId row) = true ↔
      ∃ path id, req.path = some path ∧ req.id = some id ∧
        (trim (row.path.getD "") = path ∨ quotaId api.host row = id) := by
  have hpath : (api.recordOf tenant req.volumeId row).path = some (trim (row.path.getD "")) := rfl
  have hid : (api.recordOf tenant req.volumeId row).id = some (quotaId api.host row) := rfl
  unfold MockCore.isPartial
  rw [hpath, hid]
  match req.path, req.id with
  | none, none => simp
  | none, some id => simp
  | some path, none => simp
  | some path, some id => simp

/-- Where no row agrees with the keys, one which agrees with half of them makes a conflict. -/
theorem get_failed (hkeys : MockCore.NamesKey req)
    (htenant : api.resolveTenant req.tenantId = .ok tenant)
    (huid : api.filesystemUidForVolume req.volumeId = .ok uid)
    (hnone : ∀ row ∈ rows, ¬ RowAgrees api req row) :
    (∃ message, (∃ row ∈ rows, RowHalf api req row) ∧
        api.getDirectoryQuota rows req = .error (.storage (.conflict message))) ∨
      ∃ message, (∀ row ∈ rows, ¬ RowHalf api req row) ∧
        api.getDirectoryQuota rows req = .error (.storage (.notFound message)) := by
  have hfull : ((rows.filter fun row ↦ rowPath row ≠ "").map
      (api.recordOf tenant req.volumeId)).find? (MockCore.isFull req) = none := by
    rw [List.find?_eq_none]
    intro record hrecord hmatch
    have ⟨row, hrow, heq⟩ := List.mem_map.mp hrecord
    have ⟨hmem, hlisted⟩ := listed_mem.mp hrow
    rw [← heq] at hmatch
    exact hnone row hmem ⟨hlisted, isFull_recordOf.mp hmatch⟩
  have ⟨message, hget⟩ := @providerGet_failed _ WekaError.storage _ _ _ hkeys
    (listDirectoryQuotas_eq htenant huid) hfull
  by_cases hhalf : ∃ row ∈ rows, RowHalf api req row
  · have ⟨row, hrow, hlisted, hmatch⟩ := hhalf
    have hany : ((rows.filter fun row ↦ rowPath row ≠ "").map
        (api.recordOf tenant req.volumeId)).any (MockCore.isPartial req) = true := by
      rw [List.any_eq_true]
      exact ⟨_, List.mem_map_of_mem (listed_mem.mpr ⟨hrow, hlisted⟩), isPartial_recordOf.mpr hmatch⟩
    rw [hany, if_pos rfl] at hget
    exact .inl ⟨message, hhalf, hget⟩
  · have hany : ¬ ((rows.filter fun row ↦ rowPath row ≠ "").map
        (api.recordOf tenant req.volumeId)).any (MockCore.isPartial req) = true := by
      intro hsome
      have ⟨record, hrecord, hmatch⟩ := List.any_eq_true.mp hsome
      have ⟨row, hrow, heq⟩ := List.mem_map.mp hrecord
      have ⟨hmem, hlisted⟩ := listed_mem.mp hrow
      rw [← heq] at hmatch
      exact hhalf ⟨row, hmem, hlisted, isPartial_recordOf.mp hmatch⟩
    rw [if_neg hany] at hget
    exact .inr ⟨message, fun row hrow h ↦ hhalf ⟨row, hrow, h⟩, hget⟩

/-! ## What a deletion removes -/

/-- The rows without the one of this inode. -/
def without (api : WekaApi) (rows : List QuotaRow) (row : QuotaRow) : List QuotaRow :=
  rows.filter fun other ↦ quotaInodeId api.host other ≠ quotaInodeId api.host row

/-- A row which a deletion addresses: the path of the request counts as it is normalised. -/
def RowAddressed (api : WekaApi) (req : DirectoryQuotaKeys) (row : QuotaRow) : Prop :=
  rowPath row ≠ "" ∧ (∀ path, req.path = some path → rowPath row = normPath path) ∧
    ∀ id, req.id = some id → quotaId api.host row = id

/-- A row whose path is the one of a request, but not its id. -/
def RowContested (api : WekaApi) (req : DirectoryQuotaKeys) (row : QuotaRow) : Prop :=
  rowPath row ≠ "" ∧ ∃ path id, req.path = some path ∧ req.id = some id ∧
    rowPath row = normPath path ∧ quotaId api.host row ≠ id

theorem eq_of_rowPath (h : DistinctRows api.host rows) {row other : QuotaRow} (hrow : row ∈ rows)
    (hother : other ∈ rows) (hpath : rowPath other = rowPath row) : other = row :=
  List.inj_on_of_nodup_map h.paths hother hrow hpath

theorem addressed_unique (h : DistinctRows api.host rows) (hkeys : MockCore.NamesKey req)
    {row other : QuotaRow} (hrow : row ∈ rows) (hother : other ∈ rows)
    (haddressed : RowAddressed api req row) (hotherAddressed : RowAddressed api req other) :
    other = row := by
  match hpath : req.path, hid : req.id with
  | some path, _ =>
    apply eq_of_rowPath h hrow hother
    rw [haddressed.2.1 path hpath, hotherAddressed.2.1 path hpath]
  | none, some id =>
    apply List.inj_on_of_nodup_map h.ids hother hrow
    rw [haddressed.2.2 id hid, hotherAddressed.2.2 id hid]
  | none, none => exact absurd ⟨hpath, hid⟩ hkeys

/-- What agrees with the keys as they are written is what they address. -/
theorem RowAgrees.addressed {row : QuotaRow} (h : RowAgrees api req row) :
    RowAddressed api req row := by
  refine ⟨h.1, fun path hpath ↦ ?_, h.2.2⟩
  rw [rowPath, normPath_eq_iff, ← h.2.1 path hpath, trim_trim]

theorem findDirectoryQuotaByPath_eq_none {path : String}
    (h : ∀ row ∈ rows, rowPath row ≠ normPath path) :
    findDirectoryQuotaByPath rows (normPath path) = none := by
  rw [findDirectoryQuotaByPath, normPath_normPath, List.find?_eq_none]
  intro row hrow hmatch
  rw [decide_eq_true_iff] at hmatch
  exact h row hrow hmatch

theorem findDirectoryQuotaByPath_eq_some (h : DistinctRows api.host rows) {path : String}
    {row : QuotaRow} (hrow : row ∈ rows) (hpath : rowPath row = normPath path) :
    findDirectoryQuotaByPath rows (normPath path) = some row := by
  rw [findDirectoryQuotaByPath, normPath_normPath]
  apply find?_eq_of_unique hrow (decide_eq_true_iff.mpr hpath)
  intro other hother hmatch
  rw [decide_eq_true_iff] at hmatch
  exact eq_of_rowPath h hrow hother (hmatch.trans hpath.symm)

/-- The three ways in which a deletion ends once tenant and file system are known. -/
inductive DeleteEnds (api : WekaApi) (rows : List QuotaRow) (req : DirectoryQuotaKeys) : Prop
  | removed (row : QuotaRow) (mem : row ∈ rows) (addressed : RowAddressed api req row)
      (deleted : api.deleteDirectoryQuota rows req = (.ok (), api.without rows row))
  | conflict (message : String) (contested : ∃ row ∈ rows, RowContested api req row)
      (deleted : api.deleteDirectoryQuota rows req = (.error (.storage (.conflict message)), rows))
  | kept (result : Except WekaError Unit)
      (unaddressed : ∀ row ∈ rows, ¬ RowAddressed api req row ∧ ¬ RowContested api req row)
      (quiet : ∀ message, result ≠ .error (.storage (.conflict message)))
      (deleted : api.deleteDirectoryQuota rows req = (result, rows))

theorem deleteEnds (h : DistinctRows api.host rows) (hkeys : MockCore.NamesKey req)
    (htenant : api.resolveTenant req.tenantId = .ok tenant)
    (huid : api.filesystemUidForVolume req.volumeId = .ok uid) : DeleteEnds api rows req := by
  have hdeleted : api.deleteDirectoryQuota rows req = api.deleteDirectoryQuota rows req := rfl
  conv_rhs at hdeleted =>
    unfold deleteDirectoryQuota
    rw [if_neg hkeys]
  match hpath : req.path with
  | none =>
    rw [hpath] at hdeleted
    simp only [Option.any_none, Bool.false_eq_true, if_false, htenant, huid] at hdeleted
    match hfound : rows.find? fun row ↦ some (quotaId api.host row) = req.id ∧ rowPath row ≠ "" with
    | none =>
      rw [hfound] at hdeleted
      refine .kept (.ok ()) (fun row hrow ↦ ⟨fun haddressed ↦ ?_, fun hcontested ↦ ?_⟩)
        (fun _ hresult ↦ nomatch hresult) hdeleted
      · have hid : req.id ≠ none := fun hnone ↦ hkeys ⟨hpath, hnone⟩
        have ⟨id, hid⟩ := Option.ne_none_iff_exists'.mp hid
        apply List.find?_eq_none.mp hfound row hrow
        rw [decide_eq_true_iff, hid, haddressed.2.2 id hid]
        exact ⟨rfl, haddressed.1⟩
      · have ⟨_, path, _, hsome, _⟩ := hcontested
        rw [hpath] at hsome
        exact nomatch hsome
    | some row =>
      have hrow := List.mem_of_find?_eq_some hfound
      have hmatch := List.find?_some hfound
      rw [decide_eq_true_iff] at hmatch
      have ⟨hid, hlisted⟩ := hmatch
      rw [hfound] at hdeleted
      simp only [ne_eq, not_true_eq_false, false_and, if_false] at hdeleted
      rw [api.backend.delete_removes hrow] at hdeleted
      refine .removed row hrow ⟨hlisted, fun path hsome ↦ ?_, fun id hsome ↦ ?_⟩ hdeleted
      · rw [hpath] at hsome
        exact nomatch hsome
      · rw [hsome] at hid
        exact Option.some.inj hid
  | some path =>
    rw [hpath, Option.any_some] at hdeleted
    by_cases hroot : normPath path = ""
    · rw [if_pos (decide_eq_true hroot)] at hdeleted
      refine .kept _ (fun row hrow ↦ ⟨fun haddressed ↦ ?_, fun hcontested ↦ ?_⟩)
        (fun message hresult ↦ ?_) hdeleted
      · exact haddressed.1 ((haddressed.2.1 path hpath).trans hroot)
      · have ⟨hlisted, other, _, hother, _, heq, _⟩ := hcontested
        rw [hpath, Option.some.injEq] at hother
        rw [← hother] at heq
        exact hlisted (heq.trans hroot)
      · exact nomatch hresult
    · rw [if_neg (by simpa using hroot)] at hdeleted
      simp only [htenant, huid] at hdeleted
      by_cases hrow : ∃ row ∈ rows, rowPath row = normPath path
      · have ⟨row, hmem, hrowPath⟩ := hrow
        rw [findDirectoryQuotaByPath_eq_some h hmem hrowPath] at hdeleted
        have hlisted : rowPath row ≠ "" := by
          rw [hrowPath]
          exact hroot
        have hpaths : ∀ other, req.path = some other → rowPath row = normPath other := by
          intro other hother
          rw [hpath, Option.some.injEq] at hother
          rw [← hother]
          exact hrowPath
        simp only at hdeleted
        by_cases hconflict : some path ≠ none ∧ req.id ≠ none ∧ some (quotaId api.host row) ≠ req.id
        · rw [if_pos hconflict] at hdeleted
          have ⟨id, hid⟩ := Option.ne_none_iff_exists'.mp hconflict.2.1
          refine .conflict _ ⟨row, hmem, hlisted, path, id, hpath, hid, hrowPath, fun heq ↦ ?_⟩ hdeleted
          exact hconflict.2.2 (by rw [heq, hid])
        · rw [if_neg hconflict, api.backend.delete_removes hmem] at hdeleted
          refine .removed row hmem ⟨hlisted, hpaths, fun id hid ↦ ?_⟩ hdeleted
          by_contra hne
          refine hconflict ⟨Option.some_ne_none path, ?_, ?_⟩
          · rw [hid]
            exact Option.some_ne_none id
          · rw [hid]
            exact fun heq ↦ hne (Option.some.inj heq)
      · have hnone : ∀ row ∈ rows, rowPath row ≠ normPath path :=
          fun row hmem heq ↦ hrow ⟨row, hmem, heq⟩
        rw [findDirectoryQuotaByPath_eq_none hnone] at hdeleted
        refine .kept (.ok ()) (fun row hmem ↦ ⟨fun haddressed ↦ ?_, fun hcontested ↦ ?_⟩)
          (fun _ hresult ↦ nomatch hresult) hdeleted
        · exact hnone row hmem (haddressed.2.1 path hpath)
        · have ⟨_, other, _, hother, _, heq, _⟩ := hcontested
          rw [hpath, Option.some.injEq] at hother
          rw [← hother] at heq
          exact hnone row hmem heq

theorem mem_without {row other : QuotaRow} : other ∈ api.without rows row ↔
    other ∈ rows ∧ quotaInodeId api.host other ≠ quotaInodeId api.host row := by
  rw [without, List.mem_filter, decide_eq_true_iff]

theorem without_ne {row : QuotaRow} (hrow : row ∈ rows) : api.without rows row ≠ rows := by
  intro heq
  rw [← heq, mem_without] at hrow
  exact hrow.2 rfl

theorem eq_of_without (h : DistinctRows api.host rows) {row other : QuotaRow} (hrow : row ∈ rows)
    (hother : other ∈ rows) (heq : api.without rows other = api.without rows row) : other = row := by
  by_contra hne
  have hmem : row ∈ api.without rows other := by
    refine mem_without.mpr ⟨hrow, fun hinode ↦ hne ?_⟩
    exact List.inj_on_of_nodup_map h.inodes hother hrow hinode.symm
  rw [heq] at hmem
  exact (mem_without.mp hmem).2 rfl

theorem eq_of_recordOf (h : DistinctRows api.host rows) {row other : QuotaRow} (hrow : row ∈ rows)
    (hother : other ∈ rows) {volumeId : String}
    (heq : api.recordOf tenant volumeId other = api.recordOf tenant volumeId row) : other = row := by
  apply eq_of_rowPath h hrow hother
  have hpath := congrArg DirectoryQuota.path heq
  exact normPath_eq_iff.mpr (Option.some.inj hpath)

/-- What is contested is not addressed. -/
theorem not_addressed_of_contested (h : DistinctRows api.host rows) {row other : QuotaRow}
    (hrow : row ∈ rows) (hother : other ∈ rows) (hcontested : RowContested api req other) :
    ¬ RowAddressed api req row := by
  intro haddressed
  have ⟨_, path, id, hpath, hid, hotherPath, hne⟩ := hcontested
  have heq := eq_of_rowPath h hrow hother (hotherPath.trans (haddressed.2.1 path hpath).symm)
  rw [heq] at hne
  exact hne (haddressed.2.2 id hid)

section Known

variable (h : DistinctRows api.host rows) (hkeys : MockCore.NamesKey req)
  (htenant : api.resolveTenant req.tenantId = .ok tenant)
  (huid : api.filesystemUidForVolume req.volumeId = .ok uid)

include h hkeys htenant huid

theorem delete_removes_iff {row : QuotaRow} (hrow : row ∈ rows) :
    api.deleteDirectoryQuota rows req = (.ok (), api.without rows row) ↔
      RowAddressed api req row := by
  match deleteEnds h hkeys htenant huid with
  | .removed other hother haddressed hdeleted =>
    rw [hdeleted, Prod.mk.injEq, and_iff_right rfl]
    refine ⟨fun heq ↦ ?_, fun hrowAddressed ↦ ?_⟩
    · rw [← eq_of_without h hrow hother heq]
      exact haddressed
    · rw [addressed_unique h hkeys hrow hother hrowAddressed haddressed]
  | .conflict message ⟨other, hother, hcontested⟩ hdeleted =>
    rw [hdeleted]
    have hnot := not_addressed_of_contested h hrow hother hcontested
    simp [hnot]
  | .kept result hnone _ hdeleted =>
    rw [hdeleted]
    refine ⟨fun heq ↦ ?_, fun haddressed ↦ absurd haddressed (hnone row hrow).1⟩
    exact absurd (Prod.mk.inj heq).2.symm (without_ne hrow)

theorem delete_conflict_iff :
    (∃ message, (api.deleteDirectoryQuota rows req).1 = .error (.storage (.conflict message))) ↔
      ∃ row ∈ rows, RowContested api req row := by
  match deleteEnds h hkeys htenant huid with
  | .removed row hrow haddressed hdeleted =>
    rw [hdeleted]
    refine ⟨fun ⟨_, hconflict⟩ ↦ (nomatch hconflict), fun ⟨other, hother, hcontested⟩ ↦ ?_⟩
    exact absurd haddressed (not_addressed_of_contested h hrow hother hcontested)
  | .conflict message hcontested hdeleted =>
    rw [hdeleted]
    exact ⟨fun _ ↦ hcontested, fun _ ↦ ⟨message, rfl⟩⟩
  | .kept result hnone hquiet hdeleted =>
    rw [hdeleted]
    refine ⟨fun ⟨message, hconflict⟩ ↦ absurd hconflict (hquiet message),
      fun ⟨row, hrow, hcontested⟩ ↦ absurd hcontested (hnone row hrow).2⟩

theorem get_found_iff {row : QuotaRow} (hrow : row ∈ rows) :
    api.getDirectoryQuota rows req = .ok (api.recordOf tenant req.volumeId row) ↔
      RowAgrees api req row := by
  refine ⟨fun hget ↦ ?_, fun hagrees ↦ ?_⟩
  · by_cases hsome : ∃ other ∈ rows, RowAgrees api req other
    · have ⟨other, hother, hagrees⟩ := hsome
      have hgetOther := get_of_agrees hkeys htenant huid hother hagrees fun third hthird hthirdAgrees ↦
        addressed_unique h hkeys hother hthird hagrees.addressed hthirdAgrees.addressed
      rw [hget] at hgetOther
      rw [← eq_of_recordOf h hother hrow (Except.ok.inj hgetOther)] at hagrees
      exact hagrees
    · have hnone : ∀ other ∈ rows, ¬ RowAgrees api req other :=
        fun other hother hagrees ↦ hsome ⟨other, hother, hagrees⟩
      match get_failed hkeys htenant huid hnone with
      | .inl ⟨_, _, hconflict⟩ => exact nomatch hget.symm.trans hconflict
      | .inr ⟨_, _, habsent⟩ => exact nomatch hget.symm.trans habsent
  · exact get_of_agrees hkeys htenant huid hrow hagrees fun third hthird hthirdAgrees ↦
      addressed_unique h hkeys hrow hthird hagrees.addressed hthirdAgrees.addressed

theorem get_conflict_iff :
    (∃ message, api.getDirectoryQuota rows req = .error (.storage (.conflict message))) ↔
      (∀ row ∈ rows, ¬ RowAgrees api req row) ∧ ∃ row ∈ rows, RowHalf api req row := by
  by_cases hsome : ∃ row ∈ rows, RowAgrees api req row
  · have ⟨row, hrow, hagrees⟩ := hsome
    rw [(get_found_iff h hkeys htenant huid hrow).mpr hagrees]
    refine ⟨fun ⟨_, hconflict⟩ ↦ (nomatch hconflict), fun hnone ↦ ?_⟩
    exact absurd hagrees (hnone.1 row hrow)
  · have hnone : ∀ row ∈ rows, ¬ RowAgrees api req row :=
      fun row hrow hagrees ↦ hsome ⟨row, hrow, hagrees⟩
    match get_failed hkeys htenant huid hnone with
    | .inl ⟨message, hhalf, hconflict⟩ =>
      rw [hconflict]
      exact ⟨fun _ ↦ ⟨hnone, hhalf⟩, fun _ ↦ ⟨message, rfl⟩⟩
    | .inr ⟨_, hhalf, habsent⟩ =>
      rw [habsent]
      refine ⟨fun ⟨_, hconflict⟩ ↦ (nomatch hconflict), fun hboth ↦ ?_⟩
      have ⟨row, hrow, hrowHalf⟩ := hboth.2
      exact absurd hrowHalf (hhalf row hrow)

end Known

/-! ## When the two agree -/

/-- Some row has the normalised path. -/
def HasPath (rows : List QuotaRow) (path : String) : Prop :=
  ∃ row ∈ rows, rowPath row ≠ "" ∧ rowPath row = normPath path

/-- Some row which is listed has the id. -/
def HasId (api : WekaApi) (rows : List QuotaRow) (id : String) : Prop :=
  ∃ row ∈ rows, rowPath row ≠ "" ∧ quotaId api.host row = id

/-- Some row has both. -/
def HasBoth (api : WekaApi) (rows : List QuotaRow) (path id : String) : Prop :=
  ∃ row ∈ rows, rowPath row ≠ "" ∧ rowPath row = normPath path ∧ quotaId api.host row = id

/-- A path alone is written without slashes around it, or names no row. Beside an id, a path without
slashes names a row if the id does; one with slashes does so exactly if the id does, and not the same. -/
def ReadAlike (api : WekaApi) (rows : List QuotaRow) (req : DirectoryQuotaKeys) : Prop :=
  ∀ path, req.path = some path →
    match req.id with
    | none => trim path = path ∨ ¬ HasPath rows path
    | some id =>
      if trim path = path then HasId api rows id → HasPath rows path
      else (HasId api rows id ↔ HasPath rows path) ∧ ¬ HasBoth api rows path id

/-- A deletion raises a conflict when the lookup does, and removes a row when the lookup returns it. -/
structure DeletesAsFound (api : WekaApi) (rows : List QuotaRow) (req : DirectoryQuotaKeys) : Prop where
  conflict : (∃ message, (api.deleteDirectoryQuota rows req).1 =
      .error (.storage (.conflict message))) ↔
    ∃ message, api.getDirectoryQuota rows req = .error (.storage (.conflict message))
  removes : ∀ row ∈ rows, api.deleteDirectoryQuota rows req = (.ok (), api.without rows row) ↔
    ∃ tenant, api.resolveTenant req.tenantId = .ok tenant ∧
      api.getDirectoryQuota rows req = .ok (api.recordOf tenant req.volumeId row)

/-- Tenant and file system of a request are known. -/
def Known (api : WekaApi) (req : DirectoryQuotaKeys) : Prop :=
  (∃ tenant, api.resolveTenant req.tenantId = .ok tenant) ∧
    ∃ uid, api.filesystemUidForVolume req.volumeId = .ok uid

theorem rowAgrees_iff {row : QuotaRow} : RowAgrees api req row ↔
    RowAddressed api req row ∧ ∀ path, req.path = some path → trim path = path := by
  refine ⟨fun h ↦ ⟨h.addressed, fun path hpath ↦ ?_⟩, fun ⟨haddressed, hplain⟩ ↦ ?_⟩
  · rw [← h.2.1 path hpath, trim_trim]
  · refine ⟨haddressed.1, fun path hpath ↦ ?_, haddressed.2.2⟩
    rw [normPath_eq_iff.mp (haddressed.2.1 path hpath), hplain path hpath]

theorem deletesAsFound_iff_rows (h : DistinctRows api.host rows) (hkeys : MockCore.NamesKey req)
    (hknown : Known api req) : DeletesAsFound api rows req ↔
      ((∃ row ∈ rows, RowContested api req row) ↔
        (∀ row ∈ rows, ¬ RowAgrees api req row) ∧ ∃ row ∈ rows, RowHalf api req row) ∧
      ∀ row ∈ rows, RowAddressed api req row ↔ RowAgrees api req row := by
  have ⟨⟨tenant, htenant⟩, uid, huid⟩ := hknown
  have hfound : ∀ row ∈ rows, (∃ tenant, api.resolveTenant req.tenantId = .ok tenant ∧
      api.getDirectoryQuota rows req = .ok (api.recordOf tenant req.volumeId row)) ↔
        RowAgrees api req row := by
    intro row hrow
    rw [← get_found_iff h hkeys htenant huid hrow, htenant]
    simp
  rw [← delete_conflict_iff h hkeys htenant huid, ← get_conflict_iff h hkeys htenant huid]
  refine ⟨fun hagree ↦ ⟨hagree.conflict, fun row hrow ↦ ?_⟩, fun hagree ↦ ⟨hagree.1, fun row hrow ↦ ?_⟩⟩
  · rw [← delete_removes_iff h hkeys htenant huid hrow, ← hfound row hrow]
    exact hagree.removes row hrow
  · rw [delete_removes_iff h hkeys htenant huid hrow, hfound row hrow]
    exact hagree.2 row hrow

/-- By its id alone a row is addressed as it is found. -/
theorem readAlike_of_id (hpath : req.path = none) :
    ((∃ row ∈ rows, RowContested api req row) ↔
        (∀ row ∈ rows, ¬ RowAgrees api req row) ∧ ∃ row ∈ rows, RowHalf api req row) ∧
      ∀ row ∈ rows, RowAddressed api req row ↔ RowAgrees api req row := by
  refine ⟨⟨fun ⟨_, _, _, _, _, hsome, _⟩ ↦ ?_, fun ⟨_, _, _, _, _, _, hsome, _⟩ ↦ ?_⟩, fun row _ ↦ ?_⟩
  · rw [hpath] at hsome
    exact nomatch hsome
  · rw [hpath] at hsome
    exact nomatch hsome
  · rw [rowAgrees_iff, hpath]
    simp

theorem readAlike_of_path {path : String} (hpath : req.path = some path) (hid : req.id = none) :
    (((∃ row ∈ rows, RowContested api req row) ↔
        (∀ row ∈ rows, ¬ RowAgrees api req row) ∧ ∃ row ∈ rows, RowHalf api req row) ∧
      ∀ row ∈ rows, RowAddressed api req row ↔ RowAgrees api req row) ↔
      trim path = path ∨ ¬ HasPath rows path := by
  simp only [RowContested, RowHalf, rowAgrees_iff, RowAddressed, HasPath, hpath, hid]
  by_cases hplain : trim path = path
  · simp [hplain]
  · simp [hplain]

section Agreement

variable {hasPath hasId hasBoth written : Prop}

theorem agree_written (hpath : hasBoth → hasPath) (hwritten : written) :
    ((hasPath ∧ ¬ hasBoth ↔ ¬ (written ∧ hasBoth) ∧ (hasId ∨ written ∧ hasPath)) ∧
      (written ∨ ¬ hasBoth)) ↔ (hasId → hasPath) := by
  tauto

theorem agree_unwritten (hpath : hasBoth → hasPath) (hid : hasBoth → hasId) (hwritten : ¬ written) :
    ((hasPath ∧ ¬ hasBoth ↔ ¬ (written ∧ hasBoth) ∧ (hasId ∨ written ∧ hasPath)) ∧
      (written ∨ ¬ hasBoth)) ↔ (hasId ↔ hasPath) ∧ ¬ hasBoth := by
  tauto

end Agreement

theorem readAlike_of_both (h : DistinctRows api.host rows) {path id : String}
    (hpath : req.path = some path) (hid : req.id = some id) :
    (((∃ row ∈ rows, RowContested api req row) ↔
        (∀ row ∈ rows, ¬ RowAgrees api req row) ∧ ∃ row ∈ rows, RowHalf api req row) ∧
      ∀ row ∈ rows, RowAddressed api req row ↔ RowAgrees api req row) ↔
      if trim path = path then HasId api rows id → HasPath rows path
      else (HasId api rows id ↔ HasPath rows path) ∧ ¬ HasBoth api rows path id := by
  have haddressed : ∀ row, RowAddressed api req row ↔
      rowPath row ≠ "" ∧ rowPath row = normPath path ∧ quotaId api.host row = id := by
    intro row
    simp [RowAddressed, hpath, hid]
  have hcontested : (∃ row ∈ rows, RowContested api req row) ↔
      HasPath rows path ∧ ¬ HasBoth api rows path id := by
    refine ⟨fun ⟨row, hrow, hcontested⟩ ↦ ?_, fun ⟨⟨row, hrow, hlisted, hrowPath⟩, hnot⟩ ↦ ?_⟩
    · have ⟨hlisted, other, otherId, hother, hotherId, hrowPath, hne⟩ := hcontested
      rw [hpath, Option.some.injEq] at hother
      rw [hid, Option.some.injEq] at hotherId
      rw [← hother] at hrowPath
      rw [← hotherId] at hne
      refine ⟨⟨row, hrow, hlisted, hrowPath⟩, fun ⟨third, hthird, _, hthirdPath, hthirdId⟩ ↦ ?_⟩
      rw [eq_of_rowPath h hrow hthird (hthirdPath.trans hrowPath.symm)] at hthirdId
      exact hne hthirdId
    · exact ⟨row, hrow, hlisted, path, id, hpath, hid, hrowPath,
        fun heq ↦ hnot ⟨row, hrow, hlisted, hrowPath, heq⟩⟩
  have hrowHalf : ∀ row, RowHalf api req row ↔ rowPath row ≠ "" ∧
      (trim path = path ∧ rowPath row = normPath path ∨ quotaId api.host row = id) := by
    intro row
    have hwritten : trim (row.path.getD "") = path ↔ trim path = path ∧ rowPath row = normPath path := by
      rw [rowPath, normPath_eq_iff]
      refine ⟨fun heq ↦ ?_, fun ⟨hplain, heq⟩ ↦ heq.trans hplain⟩
      rw [← heq, trim_trim]
      exact ⟨rfl, rfl⟩
    simp [RowHalf, hpath, hid, hwritten]
  have hhalf : (∃ row ∈ rows, RowHalf api req row) ↔
      HasId api rows id ∨ trim path = path ∧ HasPath rows path := by
    simp only [hrowHalf, HasId, HasPath]
    refine ⟨fun ⟨row, hrow, hlisted, heither⟩ ↦ ?_, fun heither ↦ ?_⟩
    · match heither with
      | .inl ⟨hplain, hrowPath⟩ => exact .inr ⟨hplain, row, hrow, hlisted, hrowPath⟩
      | .inr hrowId => exact .inl ⟨row, hrow, hlisted, hrowId⟩
    · match heither with
      | .inl ⟨row, hrow, hlisted, hrowId⟩ => exact ⟨row, hrow, hlisted, .inr hrowId⟩
      | .inr ⟨hplain, row, hrow, hlisted, hrowPath⟩ => exact ⟨row, hrow, hlisted, .inl ⟨hplain, hrowPath⟩⟩
  have hagrees : (∀ row ∈ rows, ¬ RowAgrees api req row) ↔
      ¬ (trim path = path ∧ HasBoth api rows path id) := by
    simp only [rowAgrees_iff, haddressed, HasBoth, hpath, Option.some.injEq, forall_eq']
    refine ⟨fun hnone ⟨hplain, row, hrow, hboth⟩ ↦ hnone row hrow ⟨hboth, hplain⟩,
      fun hnot row hrow hboth ↦ hnot ⟨hboth.2, row, hrow, hboth.1⟩⟩
  have hsame : (∀ row ∈ rows, RowAddressed api req row ↔ RowAgrees api req row) ↔
      trim path = path ∨ ¬ HasBoth api rows path id := by
    simp only [rowAgrees_iff, haddressed, HasBoth, hpath, Option.some.injEq, forall_eq']
    by_cases hplain : trim path = path
    · simp [hplain]
    · simp [hplain]
  have hbothPath : HasBoth api rows path id → HasPath rows path :=
    fun ⟨row, hrow, hlisted, hrowPath, _⟩ ↦ ⟨row, hrow, hlisted, hrowPath⟩
  have hbothId : HasBoth api rows path id → HasId api rows id :=
    fun ⟨row, hrow, hlisted, _, hrowId⟩ ↦ ⟨row, hrow, hlisted, hrowId⟩
  rw [hcontested, hagrees, hhalf, hsame]
  by_cases hplain : trim path = path
  · rw [if_pos hplain]
    exact agree_written hbothPath hplain
  · rw [if_neg hplain]
    exact agree_unwritten hbothPath hbothId hplain

theorem deletesAsFound_iff (h : DistinctRows api.host rows) (hkeys : MockCore.NamesKey req)
    (hknown : Known api req) : DeletesAsFound api rows req ↔ ReadAlike api rows req := by
  rw [deletesAsFound_iff_rows h hkeys hknown]
  unfold ReadAlike
  match hpath : req.path, hid : req.id with
  | none, _ =>
    refine iff_of_true (readAlike_of_id hpath) ?_
    simp
  | some path, none =>
    rw [readAlike_of_path hpath hid]
    simp
  | some path, some id =>
    rw [readAlike_of_both h hpath hid]
    simp

theorem resolveTenant_quiet {tenantId : Option String} {error : WekaError}
    (h : api.resolveTenant tenantId = .error error) (message : String) :
    error ≠ .storage (.conflict message) := by
  intro heq
  rw [heq] at h
  unfold resolveTenant at h
  by_cases hempty : tenantId.getD api.organization = ""
  · simp [hempty] at h
  · simp only [hempty, if_false] at h
    split_ifs at h
    simp at h

theorem filesystemUidForVolume_quiet {volumeId : String} {error : WekaError}
    (h : api.filesystemUidForVolume volumeId = .error error) (message : String) :
    error ≠ .storage (.conflict message) := by
  intro heq
  rw [heq] at h
  unfold filesystemUidForVolume filesystemForVolume at h
  by_cases hname : fsNameFromVolumeId volumeId = ""
  · simp [hname, bind, Except.bind, pure, Except.pure, throw, throwThe, MonadExceptOf.throw] at h
  · match hlist : api.filesystems with
    | .error error =>
      simp only [hname, if_false, hlist, bind, Except.bind, Except.error.injEq] at h
      exact api.request_error error message hlist h
    | .ok filesystems =>
      simp only [hname, if_false, hlist, bind, Except.bind, pure, Except.pure] at h
      match hfound : filesystems.find? fun fs ↦ fs.name = fsNameFromVolumeId volumeId with
      | none =>
        rw [hfound] at h
        exact nomatch h
      | some fs =>
        rw [hfound] at h
        simp only at h
        split_ifs at h
        exact nomatch h

theorem get_unknown (hkeys : MockCore.NamesKey req) (hunknown : ¬ Known api req) :
    ∃ error, api.getDirectoryQuota rows req = .error error ∧
      ∀ message, error ≠ .storage (.conflict message) := by
  unfold getDirectoryQuota providerGetDirectoryQuota listDirectoryQuotas
  rw [if_neg hkeys]
  match htenant : api.resolveTenant req.tenantId, huid : api.filesystemUidForVolume req.volumeId with
  | .error error, _ => exact ⟨error, rfl, resolveTenant_quiet htenant⟩
  | .ok tenant, .error error => exact ⟨error, rfl, filesystemUidForVolume_quiet huid⟩
  | .ok tenant, .ok uid => exact absurd ⟨⟨tenant, htenant⟩, uid, huid⟩ hunknown

theorem delete_unknown (hkeys : MockCore.NamesKey req) (hunknown : ¬ Known api req) :
    ∃ error, api.deleteDirectoryQuota rows req = (.error error, rows) ∧
      ∀ message, error ≠ .storage (.conflict message) := by
  unfold deleteDirectoryQuota
  rw [if_neg hkeys]
  by_cases hroot : (req.path.any fun path ↦ normPath path = "") = true
  · rw [if_pos hroot]
    exact ⟨_, rfl, fun _ heq ↦ (nomatch heq)⟩
  · rw [if_neg hroot]
    match htenant : api.resolveTenant req.tenantId,
      huid : api.filesystemUidForVolume req.volumeId with
    | .error error, _ => exact ⟨error, rfl, resolveTenant_quiet htenant⟩
    | .ok tenant, .error error => exact ⟨error, rfl, filesystemUidForVolume_quiet huid⟩
    | .ok tenant, .ok uid => exact absurd ⟨⟨tenant, htenant⟩, uid, huid⟩ hunknown

/-- A request whose tenant or file system is not known is refused by both, and by neither as a conflict. -/
theorem deletesAsFound_of_unknown (hkeys : MockCore.NamesKey req) (hunknown : ¬ Known api req) :
    DeletesAsFound api rows req := by
  have ⟨error, hget, hquiet⟩ := @get_unknown api rows req hkeys hunknown
  have ⟨refused, hdeleted, hrefused⟩ := @delete_unknown api rows req hkeys hunknown
  rw [← not_exists] at hquiet hrefused
  refine ⟨?_, fun row _ ↦ ?_⟩
  · rw [hget, hdeleted]
    refine iff_of_false (fun ⟨message, heq⟩ ↦ hrefused ⟨message, Except.error.inj heq⟩)
      fun ⟨message, heq⟩ ↦ hquiet ⟨message, Except.error.inj heq⟩
  · rw [hget, hdeleted]
    simp

/-! ## Setting and deleting by path -/

/-- The request for the quota of a path. -/
def pathKeys (quota : DirectoryQuota) (path : String) : DirectoryQuotaKeys where
  volumeId := quota.volumeId
  tenantId := some quota.tenantId
  path := some path

/-- The rows of other paths. -/
def otherRows (rows : List QuotaRow) (path : String) : List QuotaRow :=
  rows.filter fun row ↦ rowPath row ≠ normPath path

/-- The byte limit a caller asks for; none and zero are no limit. -/
def wantedBytes (limits : Option QuotaLimits) : Option ℤ :=
  (limits.bind QuotaLimits.bytes).filter (· ≠ 0)

theorem namesKey_pathKeys (quota : DirectoryQuota) (path : String) :
    MockCore.NamesKey (pathKeys quota path) := fun h ↦ Option.some_ne_none path h.1

theorem filter_key {α ι : Type} [DecidableEq ι] {key : α → ι} {items : List α} {item : α}
    (hnodup : (items.map key).Nodup) (hmem : item ∈ items) :
    items.filter (fun a ↦ key a = key item) = [item] := by
  induction items with
  | nil => exact nomatch hmem
  | cons first rest ih =>
    have ⟨hnew, hrest⟩ := List.nodup_cons.mp hnodup
    by_cases hfirst : key first = key item
    · have hsame : first = item :=
        List.inj_on_of_nodup_map hnodup List.mem_cons_self hmem hfirst
      have hnone : rest.filter (fun a ↦ key a = key item) = [] := by
        rw [List.filter_eq_nil_iff]
        intro other hother hkey
        rw [decide_eq_true_iff] at hkey
        apply hnew
        rw [hfirst, ← hkey]
        exact List.mem_map_of_mem hother
      rw [List.filter_cons, if_pos (decide_eq_true_iff.mpr hfirst), hnone, hsame]
    · have hmemRest : item ∈ rest :=
        (List.mem_cons.mp hmem).resolve_left fun heq ↦ hfirst (by rw [heq])
      rw [List.filter_cons, if_neg (by simpa using hfirst), ih hrest hmemRest]

/-- Setting the limit of the row of one inode. -/
def limitAt (api : WekaApi) (inode : String) (hard : ℤ) (row : QuotaRow) : QuotaRow :=
  if quotaInodeId api.host row = inode then { row with hardLimitBytes := some hard } else row

theorem rowPath_limitAt {inode : String} {hard : ℤ} (row : QuotaRow) :
    rowPath (api.limitAt inode hard row) = rowPath row := by
  unfold limitAt
  split_ifs <;> rfl

theorem patched_rows (h : DistinctRows api.host rows) {row : QuotaRow} (hrow : row ∈ rows) {path : String}
    (hpath : rowPath row = normPath path) (hard : ℤ) :
    otherRows (rows.map (api.limitAt (quotaInodeId api.host row) hard)) path = otherRows rows path ∧
      (rows.map (api.limitAt (quotaInodeId api.host row) hard)).filter
        (fun row ↦ rowPath row = normPath path) = [{ row with hardLimitBytes := some hard }] := by
  constructor
  · unfold otherRows
    rw [List.filter_map]
    have hfilter : rows.filter ((fun row ↦ decide (rowPath row ≠ normPath path)) ∘
        api.limitAt (quotaInodeId api.host row) hard) =
          rows.filter fun row ↦ rowPath row ≠ normPath path := by
      apply List.filter_congr
      intro other _
      rw [Function.comp_apply, rowPath_limitAt]
    have hsame : ∀ other ∈ rows.filter (fun row ↦ rowPath row ≠ normPath path),
        api.limitAt (quotaInodeId api.host row) hard other = id other := by
      intro other hother
      have ⟨hmem, hne⟩ := List.mem_filter.mp hother
      rw [decide_eq_true_iff, ← hpath] at hne
      rw [limitAt, if_neg fun hinode ↦ hne (by
        rw [List.inj_on_of_nodup_map h.inodes hmem hrow hinode]), id_eq]
    rw [hfilter, List.map_congr_left hsame, List.map_id]
  · rw [List.filter_map]
    have hfilter : rows.filter ((fun row ↦ decide (rowPath row = normPath path)) ∘
        api.limitAt (quotaInodeId api.host row) hard) = [row] := by
      rw [← filter_key h.paths hrow, hpath]
      apply List.filter_congr
      intro other _
      rw [Function.comp_apply, rowPath_limitAt]
    rw [hfilter, List.map_singleton, limitAt, if_pos rfl]

/-- The rows of a path are this one row, which holds this limit. -/
def HoldsAlone (rows : List QuotaRow) (path : String) (hard : ℤ) : Prop :=
  ∃ row, rows.filter (fun row ↦ rowPath row = normPath path) = [row] ∧
    row.hardLimitBytes = some hard

theorem put_rows {path : String} {hard : ℤ} {before later : List QuotaRow} {row : QuotaRow}
    (hnone : ∀ other ∈ before ++ later, rowPath other ≠ normPath path)
    (hpath : rowPath row = normPath path) (hhard : row.hardLimitBytes = some hard) :
    otherRows (before ++ row :: later) path = otherRows (before ++ later) path ∧
      HoldsAlone (before ++ row :: later) path hard := by
  have hempty : ∀ others : List QuotaRow, (∀ other ∈ others, rowPath other ≠ normPath path) →
      others.filter (fun row ↦ rowPath row = normPath path) = [] := by
    intro others hothers
    rw [List.filter_eq_nil_iff]
    intro other hother hkey
    rw [decide_eq_true_iff] at hkey
    exact hothers other hother hkey
  constructor
  · simp [otherRows, List.filter_append, hpath]
  · refine ⟨row, ?_, hhard⟩
    rw [List.filter_append, List.filter_cons, if_pos (decide_eq_true_iff.mpr hpath),
      hempty before fun other hother ↦ hnone other (List.mem_append_left later hother),
      hempty later fun other hother ↦ hnone other (List.mem_append_right before hother)]
    rfl

theorem putOrPatch_rows (h : DistinctRows api.host rows) {path : String} {hard : ℤ}
    {answer : Option QuotaRow} {after : List QuotaRow}
    (hstored : api.putOrPatch rows (normPath path) hard = (.ok answer, after)) :
    otherRows after path = otherRows rows path ∧ HoldsAlone after path hard := by
  unfold putOrPatch at hstored
  by_cases hrow : ∃ row ∈ rows, rowPath row = normPath path
  · have ⟨row, hmem, hrowPath⟩ := hrow
    rw [findDirectoryQuotaByPath_eq_some h hmem hrowPath] at hstored
    have hafter := api.backend.patch_stores hstored
    have ⟨hothers, hone⟩ := patched_rows h hmem hrowPath hard
    rw [hafter]
    exact ⟨hothers, _, hone, rfl⟩
  · have hnone : ∀ row ∈ rows, rowPath row ≠ normPath path :=
      fun row hmem heq ↦ hrow ⟨row, hmem, heq⟩
    rw [findDirectoryQuotaByPath_eq_none hnone] at hstored
    simp only at hstored
    match hresolve : api.resolveInode rows (normPath path) with
    | .error error =>
      rw [hresolve] at hstored
      exact nomatch hstored
    | .ok inode =>
      rw [hresolve] at hstored
      unfold resolveInode at hresolve
      rw [normPath_normPath] at hresolve
      have ⟨told, htold, hrest⟩ := bind_eq_ok.mp hresolve
      by_cases hinode : api.host.text told = ""
      · simp [hinode, bind, Except.bind, throw, throwThe, MonadExceptOf.throw] at hrest
      · simp only [hinode, if_false, pure, Except.pure, Except.ok.injEq] at hrest
        rw [← hrest] at hstored
        have ⟨before, row, later, hrows, hafter, hrowPath, hhard⟩ :=
          api.backend.put_stores htold hnone hstored
        rw [hafter, hrows]
        rw [hrows] at hnone
        exact put_rows hnone hrowPath hhard

/-- What a set which succeeds leaves: one row of the path with this limit, and the others as they are. -/
theorem set_rows (h : DistinctRows api.host rows) {quota stored : DirectoryQuota} {path : String}
    {after : List QuotaRow} (hpath : quota.path = some path)
    (hset : api.setDirectoryQuota rows quota = (.ok stored, after)) :
    Known api (pathKeys quota path) ∧ normPath path ≠ "" ∧
      otherRows after path = otherRows rows path ∧ HoldsAlone after path (hardBytes quota.hard) := by
  unfold setDirectoryQuota at hset
  rw [hpath] at hset
  simp only at hset
  match htenant : api.resolveTenant (some quota.tenantId) with
  | .error error =>
    rw [htenant] at hset
    exact nomatch hset
  | .ok tenant =>
    match huid : api.filesystemUidForVolume quota.volumeId with
    | .error error =>
      rw [htenant, huid] at hset
      exact nomatch hset
    | .ok uid =>
      rw [htenant, huid] at hset
      simp only at hset
      by_cases hroot : normPath path = ""
      · rw [if_pos hroot] at hset
        exact nomatch hset
      · rw [if_neg hroot] at hset
        match hstored : api.putOrPatch rows (normPath path) (hardBytes quota.hard) with
        | (.error error, left) =>
          rw [hstored] at hset
          exact nomatch hset
        | (.ok answer, left) =>
          rw [hstored, Prod.mk.injEq] at hset
          rw [← hset.2]
          exact ⟨⟨⟨tenant, htenant⟩, uid, huid⟩, hroot, putOrPatch_rows h hstored⟩

theorem limit_eq_iff (limits : Option QuotaLimits) :
    (some (hardBytes limits)).filter (0 < ·) = wantedBytes limits ↔ 0 ≤ hardBytes limits := by
  unfold hardBytes wantedBytes
  match limits.bind QuotaLimits.bytes with
  | none => simp
  | some bytes =>
    simp only [Option.getD_some, Option.filter_some, ne_eq, decide_not, Bool.not_eq_true',
      decide_eq_true_eq, decide_eq_false_iff_not]
    by_cases hpos : 0 < bytes
    · have hne : bytes ≠ 0 := by omega
      simp [hpos, hne, hpos.le]
    · by_cases hzero : bytes = 0
      · simp [hzero]
      · simp only [hpos, hzero, if_false, not_false_eq_true, if_true, reduceCtorEq, false_iff]
        omega

/-- After a set the lookup by the path of the request finds the limit exactly if the path is written
without slashes around it and the limit is not negative. -/
theorem get_after_set_iff {quota : DirectoryQuota} {path : String} {after : List QuotaRow}
    (hknown : Known api (pathKeys quota path)) (hroot : normPath path ≠ "")
    (hholds : HoldsAlone after path (hardBytes quota.hard)) :
    (∃ record, api.getDirectoryQuota after (pathKeys quota path) = .ok record ∧
        record.hard.bind QuotaLimits.bytes = wantedBytes quota.hard) ↔
      trim path = path ∧ 0 ≤ hardBytes quota.hard := by
  have ⟨⟨tenant, htenant⟩, uid, huid⟩ := hknown
  have hkeys := namesKey_pathKeys quota path
  have ⟨row, hrows, hhard⟩ := hholds
  have hmem : ∀ other, other ∈ after ∧ rowPath other = normPath path ↔ other = row := by
    intro other
    have hsingle : other = row ↔ other ∈ [row] := List.mem_singleton.symm
    rw [hsingle, ← hrows, List.mem_filter, decide_eq_true_iff]
  have ⟨hrow, hrowPath⟩ := (hmem row).mpr rfl
  by_cases hplain : trim path = path
  · have hagrees : RowAgrees api (pathKeys quota path) row := by
      rw [rowAgrees_iff]
      refine ⟨⟨hrowPath ▸ hroot, fun other hother ↦ ?_, fun id hid ↦ nomatch hid⟩,
        fun other hother ↦ ?_⟩
      · rw [← Option.some.inj hother]
        exact hrowPath
      · rw [← Option.some.inj hother]
        exact hplain
    have hget := get_of_agrees hkeys htenant huid hrow hagrees fun other hother hotherAgrees ↦
      (hmem other).mp ⟨hother, hotherAgrees.addressed.2.1 path rfl⟩
    have hlimit : (api.recordOf tenant (pathKeys quota path).volumeId row).hard.bind
        QuotaLimits.bytes = (some (hardBytes quota.hard)).filter (0 < ·) := by
      simp only [recordOf, directoryQuota, Option.bind_some, hhard, Option.getD_some]
    rw [hget, and_iff_right hplain, ← limit_eq_iff, ← hlimit]
    simp
  · have hnone : ∀ other ∈ after, ¬ RowAgrees api (pathKeys quota path) other := by
      intro other _ hagrees
      exact hplain ((rowAgrees_iff.mp hagrees).2 path rfl)
    simp only [hplain, false_and, iff_false, not_exists]
    intro record hget
    match get_failed hkeys htenant huid hnone with
    | .inl ⟨_, _, hconflict⟩ => exact nomatch hget.1.symm.trans hconflict
    | .inr ⟨_, _, habsent⟩ => exact nomatch hget.1.symm.trans habsent

theorem otherRows_without (h : DistinctRows api.host rows) {path : String} {row : QuotaRow}
    (hrow : row ∈ rows) (hpath : rowPath row = normPath path) :
    otherRows (api.without rows row) path = otherRows rows path := by
  unfold otherRows without
  rw [List.filter_filter]
  apply List.filter_congr
  intro other hother
  by_cases hkey : rowPath other = normPath path
  · simp [hkey]
  · have hinode : quotaInodeId api.host other ≠ quotaInodeId api.host row := by
      intro hsame
      rw [List.inj_on_of_nodup_map h.inodes hother hrow hsame] at hkey
      exact hkey hpath
    simp [hkey, hinode]

/-- After a deletion by path the lookup by that path finds nothing, and the others are as they were. -/
theorem get_after_delete (h : DistinctRows api.host rows) {path : String} {after : List QuotaRow}
    (hpath : req.path = some path) (hid : req.id = none)
    (hdelete : api.deleteDirectoryQuota rows req = (.ok (), after)) :
    otherRows after path = otherRows rows path ∧
      ∃ message, api.getDirectoryQuota after req = .error (.storage (.notFound message)) := by
  have hkeys : MockCore.NamesKey req := fun hnone ↦ nomatch hpath.symm.trans hnone.1
  have hknown : Known api req := by
    by_contra hunknown
    have ⟨_, hrefused, _⟩ := @delete_unknown api rows req hkeys hunknown
    exact nomatch (Prod.mk.inj (hdelete.symm.trans hrefused)).1
  have ⟨⟨tenant, htenant⟩, uid, huid⟩ := hknown
  have habsent : ∀ others : List QuotaRow, (∀ row ∈ others, ¬ RowAddressed api req row) →
      ∃ message, api.getDirectoryQuota others req = .error (.storage (.notFound message)) := by
    intro others hothers
    have hnone : ∀ row ∈ others, ¬ RowAgrees api req row :=
      fun row hrow hagrees ↦ hothers row hrow hagrees.addressed
    match get_failed hkeys htenant huid hnone with
    | .inl ⟨_, ⟨_, _, _, _, _, _, hsome, _⟩, _⟩ => exact nomatch hid.symm.trans hsome
    | .inr ⟨message, _, hget⟩ => exact ⟨message, hget⟩
  match deleteEnds h hkeys htenant huid with
  | .removed row hrow haddressed hdeleted =>
    rw [hdelete, Prod.mk.injEq] at hdeleted
    rw [hdeleted.2]
    refine ⟨otherRows_without h hrow (haddressed.2.1 path hpath), habsent _ fun other hother ↦ ?_⟩
    intro hotherAddressed
    have ⟨hmem, hne⟩ := mem_without.mp hother
    rw [addressed_unique h hkeys hrow hmem haddressed hotherAddressed] at hne
    exact hne rfl
  | .conflict _ _ hdeleted =>
    rw [hdelete, Prod.mk.injEq] at hdeleted
    exact nomatch hdeleted.1
  | .kept _ hnone _ hdeleted =>
    rw [hdelete, Prod.mk.injEq] at hdeleted
    rw [hdeleted.2]
    exact ⟨rfl, habsent rows fun row hrow ↦ (hnone row hrow).1⟩

/-- Setting, finding and deleting directory quotas: what a set stores is found by the path it was set at
exactly if that is written without slashes around it and the limit is not negative; what a deletion by
path leaves is not found; and a request with both kinds of keys deletes what it finds exactly if the
two are read alike. Rows of other paths stay as they are. -/
theorem directory_contract_iff (api : WekaApi) {rows : List QuotaRow}
    (hrows : DistinctRows api.host rows) :
    (∀ quota path stored after, quota.path = some path →
        api.setDirectoryQuota rows quota = (.ok stored, after) →
        otherRows after path = otherRows rows path ∧ HoldsAlone after path (hardBytes quota.hard) ∧
        ((∃ record, api.getDirectoryQuota after (pathKeys quota path) = .ok record ∧
            record.hard.bind QuotaLimits.bytes = wantedBytes quota.hard) ↔
          trim path = path ∧ 0 ≤ hardBytes quota.hard)) ∧
      (∀ req path after, req.path = some path → req.id = none →
        api.deleteDirectoryQuota rows req = (.ok (), after) →
        otherRows after path = otherRows rows path ∧
        ∃ message, api.getDirectoryQuota after req = .error (.storage (.notFound message))) ∧
      ∀ req, MockCore.NamesKey req →
        (DeletesAsFound api rows req ↔ (Known api req → ReadAlike api rows req)) := by
  refine ⟨fun quota path stored after hpath hset ↦ ?_,
    fun req path after hpath hid hdelete ↦ get_after_delete hrows hpath hid hdelete,
    fun req hkeys ↦ ?_⟩
  · have ⟨hknown, hroot, hothers, hholds⟩ := set_rows hrows hpath hset
    exact ⟨hothers, hholds, get_after_set_iff hknown hroot hholds⟩
  · by_cases hknown : Known api req
    · rw [deletesAsFound_iff hrows hkeys hknown]
      simp [hknown]
    · exact iff_of_true (deletesAsFound_of_unknown hkeys hknown) fun h ↦ absurd h hknown

/-- A host whose texts are ASCII. -/
def asciiHost : WekaHost where
  lower := fun text ↦ text
  isSpace := fun c ↦ c == ' '
  isAlnum := Char.isAlphanum
  str := fun
    | .str text => text
    | .int value => toString value
    | _ => ""

theorem text_asciiHost (text : String) : asciiHost.text (.str text) = text := by
  unfold WekaHost.text
  by_cases h : text = ""
  · rw [h]
    rfl
  · have htruthy : (Json.str text).truthy = true := bne_iff_ne.mpr h
    rw [if_pos htruthy]
    rfl

/-- A backend where every directory exists, and the inode of one is told by its path. -/
def treeBackend : WekaBackend asciiHost where
  resolvePath := fun _ path ↦
    if normPath path = path then .ok (.str path) else .error (.api "no such path")
  put := fun rows inode hard ↦
    (.ok none, rows ++ [{ path := some inode, inodeId := .str inode, hardLimitBytes := some hard }])
  patch := fun rows inode hard ↦ (.ok none, rows.map fun row ↦
    if quotaInodeId asciiHost row = inode then { row with hardLimitBytes := some hard } else row)
  delete := fun rows inode ↦ (.ok (), rows.filter fun row ↦ quotaInodeId asciiHost row ≠ inode)
  put_stores := by
    intro rows path inode hard answer after hresolve _ hput
    by_cases hpath : normPath path = path
    · rw [if_pos hpath, Except.ok.injEq] at hresolve
      rw [← hresolve, text_asciiHost, Prod.mk.injEq] at hput
      exact ⟨rows, _, [], (List.append_nil rows).symm, hput.2.symm, hpath, rfl⟩
    · rw [if_neg hpath] at hresolve
      exact nomatch hresolve
  patch_stores := fun h ↦ (Prod.mk.inj h).2.symm
  delete_removes := fun _ ↦ rfl

def treeApi : WekaApi where
  host := asciiHost
  organization := "org"
  filesystems := .ok [{ name := "fs", uid := "u" }]
  backend := treeBackend
  request_error := fun _ _ h ↦ nomatch h

/-- A row which is known by its quota id. -/
def homeRow : QuotaRow where
  path := some "/home/"
  quotaId := .str "7"
  hardLimitBytes := some 4096

def quotaOf (path : String) : DirectoryQuota where
  tenantId := "org"
  volumeId := "weka/v2/fs"
  path := some path
  hard := some { bytes := some 8192 }

theorem distinct_homeRow : DistinctRows treeApi.host [homeRow] :=
  ⟨List.nodup_singleton _, List.nodup_singleton _, List.nodup_singleton _⟩

/-- A limit which is set at a path without slashes is found by it, beside the row of another path. -/
theorem directory_contract_home : ∃ record,
    treeApi.getDirectoryQuota (treeApi.setDirectoryQuota [homeRow] (quotaOf "data")).2
        (pathKeys (quotaOf "data") "data") = .ok record ∧
      record.hard.bind QuotaLimits.bytes = wantedBytes (quotaOf "data").hard :=
  ((directory_contract_iff treeApi distinct_homeRow).1 _ "data" _ _ rfl
    (Prod.ext (by rfl) rfl)).2.2.mpr ⟨by decide, by decide⟩

/-- A limit which is set at a path with a slash before it is not found by that path. -/
theorem slashed_path_not_found :
    (treeApi.setDirectoryQuota [homeRow] (quotaOf "/data")).1.isOk = true ∧
      (treeApi.getDirectoryQuota (treeApi.setDirectoryQuota [homeRow] (quotaOf "/data")).2
        (pathKeys (quotaOf "/data") "/data")).isOk = false := by
  decide

end WekaApi

end IsvValidation.Storage
