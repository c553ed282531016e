import Mathlib.Algebra.Ring.Int.Defs
import IsvValidation.Host.Text
import IsvValidation.Storage.Capabilities

/-!
# The in-memory storage provider

`MockStorageApi` keeps volumes, directory quotas and user quotas of one tenant. A request changes
the store or raises; what `uuid4` returns comes with each request. The qualifiers the mock is built
with decide how a directory quota is identified, how byte caps are rounded, whether inode caps are
kept and whether there is a default-user slot; they are inherited from groups as in a composition.
-/

namespace IsvValidation.Storage

open Library Host

/-! ## Integers in text -/

/-- Tables behind `int`: white space, and the decimal value of a character. -/
structure Numerals extends Unicode where
  decimal : Char → Option ℕ

namespace Numerals

/-- Digits with single underscores between them; more than 4300 are refused. -/
def natural (numerals : Numerals) (text : List Char) : Option ℕ :=
  let groups := text.splitOn '_'
  if groups.any List.isEmpty then none
  else
    (groups.flatten.mapM numerals.decimal).bind fun digits ↦
      if 4300 < digits.length then none
      else some (digits.foldl (fun value digit ↦ 10 * value + digit) 0)

/-- `int(text)`; none where it raises a `ValueError`. -/
def int (numerals : Numerals) (text : String) : Option ℤ :=
  match (numerals.strip text).toList with
  | '-' :: rest => (numerals.natural rest).map fun value ↦ -(value : ℤ)
  | '+' :: rest => (numerals.natural rest).map Int.ofNat
  | rest => (numerals.natural rest).map Int.ofNat

end Numerals

/-! ## Records -/

structure QuotaLimits where
  bytes : Option ℤ := none
  inodes : Option ℤ := none
  deriving DecidableEq

structure QuotaUsage where
  bytes : Option ℤ := none
  inodes : Option ℤ := none
  deriving DecidableEq

structure DirectoryQuota where
  tenantId : String
  volumeId : String
  path : Option String := none
  id : Option String := none
  hard : Option QuotaLimits := none
  usage : QuotaUsage := {}
  attributes : OrderedMap String String := .empty

/-- No user is the default-user slot of the volume. -/
structure UserQuota where
  tenantId : String
  volumeId : String
  user : Option String
  hard : Option QuotaLimits := none
  usage : QuotaUsage := {}
  attributes : OrderedMap String String := .empty

structure Volume where
  tenantId : String
  id : String
  sizeBytes : ℤ
  type : String
  state : String
  name : Option String := none
  tier : Option String := none
  tags : OrderedMap String String := .empty
  usedBytes : Option ℤ := none
  availableBytes : Option ℤ := none

structure CreateVolumeRequest where
  sizeBytes : ℤ
  volumeType : String
  tenantId : Option String := none
  name : Option String := none
  tier : Option String := none
  tags : Option (OrderedMap String String) := none

structure DeleteVolumeRequest where
  volumeId : String
  tenantId : Option String := none

/-- The keys by which a directory quota is looked up or deleted. -/
structure DirectoryQuotaKeys where
  volumeId : String
  tenantId : Option String := none
  path : Option String := none
  id : Option String := none

/-- The keys by which a user quota is looked up or deleted. -/
structure UserQuotaKeys where
  volumeId : String
  tenantId : Option String := none
  user : Option String := none

/-- What a request to the mock raises. -/
inductive MockError where
  | notFound (message : String)
  | notSupported (message : String)
  | quotaExceeded (message : String)
  | validation (message : String)
  | conflict (message : String)
  | valueError
  | zeroDivision
  deriving DecidableEq

/-- A character as `repr` writes it, where all which are not ASCII are printable. -/
def reprChar (quote c : Char) : List Char :=
  if c = quote ∨ c = '\\' then ['\\', c]
  else if c = '\t' then ['\\', 't']
  else if c = '\n' then ['\\', 'n']
  else if c = '\r' then ['\\', 'r']
  else if c.toNat < 32 ∨ c.toNat = 127 then
    ['\\', 'x', Nat.digitChar (c.toNat / 16), Nat.digitChar (c.toNat % 16)]
  else [c]

/-- `repr` of an optional string. -/
def quoted : Option String → String
  | some text =>
    let quote := if '\'' ∈ text.toList ∧ '"' ∉ text.toList then '"' else '\''
    String.ofList (quote :: text.toList.flatMap (reprChar quote) ++ [quote])
  | none => "None"

/-! ## The mock -/

/-- `_qual`: a qualifier of a capability, inherited from its groups. -/
def qual (qualifiers : OrderedMap String (OrderedMap String String)) (id key : String)
    (default : Option String) : Option String :=
  ((resolveQualifiers qualifiers id).get? key).or default

/-- `_dir_qual`. -/
def dirQual (qualifiers : OrderedMap String (OrderedMap String String)) (key : String)
    (default : Option String) : Option String :=
  qual qualifiers capDirectoryQuotaSet key default

/-- `_user_qual`. -/
def userQual (qualifiers : OrderedMap String (OrderedMap String String)) (key : String)
    (default : Option String) : Option String :=
  qual qualifiers capUserQuotaSet key default

/-- `_MockCore`: a mock with several bindings of one id refuses to be built. -/
structure MockCore where
  numerals : Numerals
  qualifiers : OrderedMap String (OrderedMap String String)
  defaultTenant : String
  hardLimitBytes : ℤ
  singleBinding : dirQual qualifiers "multiPathBinding" (some "false") ≠ some "true"

/-- What the mock holds. -/
structure Store where
  volumes : OrderedMap String Volume := .empty
  directoryQuotas : OrderedMap (String × String) (List DirectoryQuota) := .empty
  userQuotas : OrderedMap (String × String) (OrderedMap (Option String) UserQuota) := .empty

namespace MockCore

variable (core : MockCore)

/-- `_resolve_tenant`. -/
def resolveTenant (tenantId : Option String) : Except MockError String :=
  let resolved := (tenantId.filter (· ≠ "")).getD core.defaultTenant
  if resolved ≠ core.defaultTenant then
    .error (.notFound
      s!"tenant {quoted resolved} not found (mock has only {quoted core.defaultTenant})")
  else .ok resolved

/-- `_byte_granularity`. -/
def byteGranularity (value : Option String) : Except MockError (Option ℤ) :=
  match value.filter (· ≠ "") with
  | none => .ok none
  | some text =>
    match core.numerals.int text with
    | none => .error .valueError
    | some granularity => .ok (some granularity)

/-- `_normalize_quota_hard`. -/
def normalizeQuotaHard (hard : Option QuotaLimits) (byteGranularity : Option ℤ)
    (inodesSupported : Bool) : Except MockError (Option QuotaLimits) :=
  match hard with
  | none => .ok none
  | some limits =>
    let inodes := if inodesSupported then limits.inodes else none
    match limits.bytes, byteGranularity with
    | some bytes, some granularity =>
      if granularity = 0 then .error .zeroDivision
      else
        .ok (some { bytes := some ((bytes + granularity - 1).fdiv granularity * granularity), inodes })
    | bytes, _ => .ok (some { bytes, inodes })

/-! ### Volumes -/

/-- What the volumes of a tenant add up to. -/
def used (volumes : OrderedMap String Volume) (tenantId : String) : ℤ :=
  ((volumes.values.filter fun volume ↦ volume.tenantId = tenantId).map Volume.sizeBytes).sum

def createVolume (store : Store) (uuid : String) (req : CreateVolumeRequest) :
    Except MockError Volume × Store :=
  match core.resolveTenant req.tenantId with
  | .error error => (.error error, store)
  | .ok resolved =>
    let total := used store.volumes resolved + req.sizeBytes
    if total > core.hardLimitBytes then
      (.error (.quotaExceeded
        s!"create_volume would exceed tenant quota: {total} > {core.hardLimitBytes}"), store)
    else
      let volume : Volume := {
        tenantId := resolved
        id := s!"vol-{uuid.take 12}"
        sizeBytes := req.sizeBytes
        type := req.volumeType
        state := "available"
        name := req.name
        tier := req.tier
        tags := req.tags.getD .empty
        usedBytes := some 0
        availableBytes := some req.sizeBytes }
      (.ok volume, { store with volumes := store.volumes.insert volume.id volume })

def deleteVolume (store : Store) (req : DeleteVolumeRequest) : Except MockError Unit × Store :=
  match core.resolveTenant req.tenantId with
  | .error error => (.error error, store)
  | .ok _ =>
    (.ok (), { store with volumes := store.volumes.filterKeys (· ≠ req.volumeId) })

/-! ### Directory quotas -/

def idAssignment : Option String := dirQual core.qualifiers "idAssignment" (some "backend")

/-- `getattr(record, natural_attr)`. -/
def naturalKey (record : DirectoryQuota) : Option String :=
  if core.idAssignment = some "caller" then record.id else record.path

def directoryGranularity : Except MockError (Option ℤ) :=
  core.byteGranularity (dirQual core.qualifiers "byteGranularity" none)

def directoryInodes : Bool := dirQual core.qualifiers "inodes" (some "true") ≠ some "false"

/-- Replace the first record which matches, or append a new one. -/
def upsert {α : Type} (p : α → Bool) (stored : α) : List α → List α
  | [] => [stored]
  | record :: rest => if p record then stored :: rest else record :: upsert p stored rest

/-- The records of a volume. -/
def records (store : Store) (tenantId volumeId : String) : List DirectoryQuota :=
  (store.directoryQuotas.get? (tenantId, volumeId)).getD []

/-- Whether two records have the same natural key. -/
def sameKey (quota record : DirectoryQuota) : Bool :=
  core.naturalKey record = core.naturalKey quota

/-- The id a record is stored under: the backend keeps the id of the record it replaces, or mints
one, unless the caller names it. -/
def recordId (held : List DirectoryQuota) (uuid : String) (quota : DirectoryQuota) :
    Option String :=
  if core.idAssignment = some "backend" ∧ quota.id = none then
    match held.find? (core.sameKey quota) with
    | some record => record.id
    | none => some s!"dq-{uuid.take 8}"
  else quota.id

def setDirectoryQuota (store : Store) (uuid : String) (quota : DirectoryQuota) :
    Except MockError DirectoryQuota × Store :=
  match core.resolveTenant (some quota.tenantId) with
  | .error error => (.error error, store)
  | .ok resolved =>
    if core.idAssignment = some "caller" ∧ quota.id = none then
      (.error (.validation
        "directory quota id is required when id_assignment='caller'"), store)
    else if core.idAssignment = some "backend" ∧ quota.path = none then
      (.error (.validation
        "directory quota path is required when id_assignment='backend'"), store)
    else
      match core.directoryGranularity.bind fun granularity ↦
          normalizeQuotaHard quota.hard granularity core.directoryInodes with
      | .error error => (.error error, store)
      | .ok newHard =>
        let held := records store resolved quota.volumeId
        let stored : DirectoryQuota :=
          { quota with
            tenantId := resolved
            id := core.recordId held uuid quota
            hard := newHard
            usage := {} }
        let changed := store.directoryQuotas.insert (resolved, quota.volumeId)
          (upsert (core.sameKey quota) stored held)
        (.ok stored, { store with directoryQuotas := changed })

/-- Whether a record agrees with all keys given. -/
def isFull (keys : DirectoryQuotaKeys) (record : DirectoryQuota) : Bool :=
  (keys.path = none ∨ record.path = keys.path) ∧ (keys.id = none ∨ record.id = keys.id)

/-- Whether a record agrees with one of two keys given. -/
def isPartial (keys : DirectoryQuotaKeys) (record : DirectoryQuota) : Bool :=
  keys.path ≠ none ∧ keys.id ≠ none ∧ (record.path = keys.path ∨ record.id = keys.id)

/-- The last partial match before the first full one. -/
def partialMatch (keys : DirectoryQuotaKeys) (records : List DirectoryQuota) :
    Option DirectoryQuota :=
  ((records.takeWhile fun record ↦ !isFull keys record).filter (isPartial keys)).getLast?

def deleteDirectoryQuota (store : Store) (req : DirectoryQuotaKeys) :
    Except MockError Unit × Store :=
  if req.path = none ∧ req.id = none then
    (.error (.validation "delete_directory_quota requires at least one of `path` or `id`"), store)
  else
    match core.resolveTenant req.tenantId with
    | .error error => (.error error, store)
    | .ok resolved =>
      let held := records store resolved req.volumeId
      if held.any (isFull req) then
        let changed := store.directoryQuotas.insert (resolved, req.volumeId)
          (held.eraseP (isFull req))
        (.ok (), { store with directoryQuotas := changed })
      else
        match partialMatch req held with
        | some found =>
          (.error (.conflict (s!"directory quota lookup mismatch on volume {quoted req.volumeId}: " ++
            s!"requested path={quoted req.path}, id={quoted req.id}; " ++
            s!"found path={quoted found.path}, id={quoted found.id}")), store)
        | none => (.ok (), store)

def listDirectoryQuotas (store : Store) (volumeId : String) (tenantId : Option String) :
    Except MockError (List DirectoryQuota) := do
  let resolved ← core.resolveTenant tenantId
  return records store resolved volumeId

/-- `StorageProvider.get_directory_quota`, which the mock inherits. -/
def getDirectoryQuota (store : Store) (req : DirectoryQuotaKeys) :
    Except MockError DirectoryQuota := do
  if req.path = none ∧ req.id = none then
    throw (.validation "get_directory_quota requires at least one of `path` or `id`")
  let quotas ← core.listDirectoryQuotas store req.volumeId req.tenantId
  match quotas.find? (isFull req), partialMatch req quotas with
  | some record, _ => return record
  | none, some found =>
    throw (.conflict (s!"directory quota lookup mismatch: requested path={quoted req.path}, " ++
      s!"id={quoted req.id}; found path={quoted found.path}, id={quoted found.id}"))
  | none, none =>
    throw (.notFound (s!"directory quota not found (volume_id={quoted req.volumeId}, " ++
      s!"path={quoted req.path}, id={quoted req.id})"))

/-! ### User quotas -/

def userGranularity : Except MockError (Option ℤ) :=
  core.byteGranularity (userQual core.qualifiers "byteGranularity" none)

def userInodes : Bool := userQual core.qualifiers "inodes" (some "true") ≠ some "false"

/-- Whether the slot a request addresses is the default-user slot of a mock without one. -/
def lacksSlot (user : Option String) : Bool :=
  user = none ∧ userQual core.qualifiers "defaultUserSlot" (some "true") = some "false"

def noSlot : MockError :=
  .notSupported "default-user slot (user=None) not supported by this mock"

def setUserQuota (store : Store) (quota : UserQuota) : Except MockError UserQuota × Store :=
  if core.lacksSlot quota.user then (.error noSlot, store)
  else
    match core.resolveTenant (some quota.tenantId) with
    | .error error => (.error error, store)
    | .ok resolved =>
      match core.userGranularity.bind fun granularity ↦
          normalizeQuotaHard quota.hard granularity core.userInodes with
      | .error error => (.error error, store)
      | .ok newHard =>
        let stored : UserQuota := { quota with tenantId := resolved, hard := newHard, usage := {} }
        let inner := (store.userQuotas.get? (resolved, quota.volumeId)).getD .empty
        let changed := store.userQuotas.insert (resolved, quota.volumeId)
          (inner.insert quota.user stored)
        (.ok stored, { store with userQuotas := changed })

def deleteUserQuota (store : Store) (req : UserQuotaKeys) : Except MockError Unit × Store :=
  if core.lacksSlot req.user then (.error noSlot, store)
  else
    match core.resolveTenant req.tenantId with
    | .error error => (.error error, store)
    | .ok resolved =>
      match store.userQuotas.get? (resolved, req.volumeId) with
      | none => (.ok (), store)
      | some inner =>
        let changed := store.userQuotas.insert (resolved, req.volumeId)
          (inner.filterKeys (· ≠ req.user))
        (.ok (), { store with userQuotas := changed })

def listUserQuotas (store : Store) (volumeId : String) (tenantId : Option String) :
    Except MockError (List UserQuota) := do
  let resolved ← core.resolveTenant tenantId
  return ((store.userQuotas.get? (resolved, volumeId)).getD .empty).values

/-- `StorageProvider.get_user_quota`, which the mock inherits. -/
def getUserQuota (store : Store) (req : UserQuotaKeys) : Except MockError UserQuota := do
  let quotas ← core.listUserQuotas store req.volumeId req.tenantId
  match quotas.find? fun record ↦ record.user = req.user with
  | some record => return record
  | none =>
    throw (.notFound
      s!"user quota not found (volume_id={quoted req.volumeId}, user={quoted req.user})")

end MockCore

/-! ## Requests -/

/-- A request which may change the store. -/
inductive MockRequest where
  | createVolume (req : CreateVolumeRequest)
  | deleteVolume (req : DeleteVolumeRequest)
  | setDirectoryQuota (quota : DirectoryQuota)
  | deleteDirectoryQuota (req : DirectoryQuotaKeys)
  | setUserQuota (quota : UserQuota)
  | deleteUserQuota (req : UserQuotaKeys)

/-- One request, with the `uuid4` it may draw; what it returns is left out. -/
def MockCore.handle (core : MockCore) (store : Store) (uuid : String) :
    MockRequest → Except MockError Unit × Store
  | .createVolume req => (core.createVolume store uuid req).map (Except.map fun _ ↦ ()) id
  | .deleteVolume req => core.deleteVolume store req
  | .setDirectoryQuota quota =>
    (core.setDirectoryQuota store uuid quota).map (Except.map fun _ ↦ ()) id
  | .deleteDirectoryQuota req => core.deleteDirectoryQuota store req
  | .setUserQuota quota => (core.setUserQuota store quota).map (Except.map fun _ ↦ ()) id
  | .deleteUserQuota req => core.deleteUserQuota store req

/-- The store after a sequence of requests, each with the `uuid4` it may draw. -/
def MockCore.run (core : MockCore) (requests : List (String × MockRequest)) : Store :=
  requests.foldl (fun store request ↦ (core.handle store request.1 request.2).2) {}

end IsvValidation.Storage
