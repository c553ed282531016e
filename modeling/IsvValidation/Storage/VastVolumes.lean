import IsvValidation.Host.Directories
import IsvValidation.Storage.WekaDirectory

/-!
# Volumes of the VAST provider

A volume id of the VAST provider is the number of a quota, an absolute path, or the handle of a volume
below the storage path. A row is looked up in that order; then the rows are scanned for one whose path
occurs in the volume id, and that one need not be the row the id names. A directory quota is written at
the path of the request, joined to the path of the row which was found.
-/

namespace IsvValidation.Storage.Vast

open Config Host Library

/-! ## Rows and paths -/

/-- What the provider reads of a quota of the backend; an absent path is empty. -/
structure VastRow where
  id : ℕ
  path : String := ""
  hardLimit : Option ℤ := none
  hardLimitInodes : Option ℤ := none
  usedEffectiveCapacity : Option ℤ := none
  usedCapacity : Option ℤ := none
  usedInodes : Option ℤ := none
  deriving DecidableEq

/-- `text.rstrip("/")`. -/
def trimRight (text : String) : String := .ofList (text.toList.rdropWhile (· == '/'))

/-- `_norm_path`. -/
def normPath (path : String) : String := "/" ++ trim path

/-- `_join_vol_path`. -/
def joinVolPath (root rel : String) : String :=
  let rel := trim rel
  let base := trimRight (normPath root)
  if rel = "" then (if base ≠ "" then base else "/")
  else if base ≠ "" then base ++ "/" ++ rel else "/" ++ rel

/-- `_rel_under`. -/
def relUnder (root absPath : String) : String :=
  let path := normPath absPath
  let root := normPath root
  if path = root then ""
  else
    let start := trimRight root ++ "/"
    if Text.startsWith path start then .ofList (path.toList.drop start.length) else trimLeft path

/-- `str(row.get("id") or "")`. -/
def idText (row : VastRow) : String := if row.id = 0 then "" else toString row.id

def endsWith (text part : String) : Bool := part.toList.isSuffixOf text.toList

/-- `_volume_matches_quota`. -/
def volumeMatchesQuota (row : VastRow) (volumeId : String) : Bool :=
  if volumeId = "" then false
  else if idText row = volumeId then true
  else
    let rawPath := trim row.path
    if rawPath = "" then false
    else
      let qpath := normPath rawPath
      if qpath = normPath volumeId then true
      else endsWith volumeId qpath || Text.contains volumeId qpath

/-- `VastApi._is_at_or_under`. -/
def isAtOrUnder (path root : String) : Bool :=
  let pathNorm := trimRight path
  let rootNorm := trimRight root
  pathNorm == rootNorm || Text.startsWith pathNorm (rootNorm ++ "/")

/-- `VastApi._hard_to_body`. -/
def hardToBody (hard : Option QuotaLimits) : QuotaLimits := hard.getD {}

/-- `VastApi._limits_from`; zero is no limit. -/
def limitsFrom (hardLimit hardLimitInodes : Option ℤ) : Option QuotaLimits :=
  let bytes := hardLimit.filter (· ≠ 0)
  let inodes := hardLimitInodes.filter (· ≠ 0)
  if bytes = none ∧ inodes = none then none else some { bytes := bytes, inodes := inodes }

/-- `VastApi._quota_to_directory_quota`. -/
def quotaToDirectoryQuota (row : VastRow) (tenantId volumeId root : String) : DirectoryQuota where
  tenantId := tenantId
  volumeId := volumeId
  path := some (relUnder root row.path)
  id := some (toString row.id)
  hard := limitsFrom row.hardLimit row.hardLimitInodes
  usage := {
    bytes := some (((row.usedEffectiveCapacity.filter (· ≠ 0)).or row.usedCapacity).getD 0)
    inodes := row.usedInodes }

/-! ## The provider and its backend -/

/-- A request which changes quotas. -/
inductive VastWrite where
  | post (path name : String) (hard : QuotaLimits)
  | patch (id : ℕ) (hard : QuotaLimits)
  | delete (id : ℕ)

/-- What a request to the provider raises: an error of the storage interface, or one of the API. -/
inductive VastError where
  | storage (error : MockError)
  | api (message : String)

/-- The quotas of a backend, and what it answers. Asked for a path it lists rows of its own, among them
every row of that path. -/
structure VastBackend where
  rows : List VastRow
  atPath : String → List VastRow
  answer : VastWrite → Except VastError VastRow
  atPath_rows : ∀ target, ∀ row ∈ atPath target, row ∈ rows
  atPath_all : ∀ target, ∀ row ∈ rows, trimRight row.path = trimRight target → row ∈ atPath target

/-- Numbers in text as Python reads them; the digits of ASCII are among its digits. -/
structure VastHost extends Numerals where
  isDigit : Char → Bool
  asciiDigit : ∀ c : Char, c.isDigit = true →
    isDigit c = true ∧ decimal c = some (c.toNat - '0'.toNat) ∧ isSpace c = false

/-- `text.isdigit()`. -/
def VastHost.isdigit (host : VastHost) (text : String) : Bool :=
  !text.toList.isEmpty && text.toList.all host.isDigit

/-- The provider, for one tenant and the storage path it is given. -/
structure VastApi where
  host : VastHost
  tenant : String
  storagePath : String
  backend : VastBackend

namespace VastApi

variable (api : VastApi)

/-- `VastApi._resolve_tenant`. -/
def resolveTenant (tenantId : Option String) : Except VastError String :=
  if tenantId ≠ none ∧ tenantId ≠ some api.tenant then
    .error (.api (s!"tenant_id={quoted tenantId} does not match this shim's configured tenant " ++
      s!"{quoted api.tenant}; declare a separate provider entry per tenant"))
  else .ok (tenantId.getD api.tenant)

/-- `VastApi._get_quota_by_id`. -/
def getQuotaById (quotaId : String) : Except VastError (Option VastRow) :=
  match api.host.int quotaId with
  | none => .error (.storage (.validation s!"volume_id {quoted quotaId} is not a VAST quota id"))
  | some number => .ok (api.backend.rows.find? fun row ↦ (row.id : ℤ) = number)

/-- `VastApi._get_quota_by_path`. -/
def getQuotaByPath (path : String) : Option VastRow :=
  let target := normPath path
  (api.backend.atPath target).find? fun row ↦ trimRight row.path = trimRight target

/-- The path a volume id stands for when it is no number: itself, or a leaf below the storage path. -/
def exportPath (volumeId : String) : String :=
  if Text.startsWith volumeId "/" then volumeId
  else joinVolPath (normPath api.storagePath) volumeId

/-- `VastApi._volume_quota`. -/
def volumeQuota (volumeId : String) : Except VastError VastRow := do
  let numbered ← if api.host.isdigit volumeId then api.getQuotaById volumeId else pure none
  let exported := if volumeId = "" then none else api.getQuotaByPath (api.exportPath volumeId)
  let scanned := api.backend.rows.find? fun row ↦ volumeMatchesQuota row volumeId
  match (numbered.or exported).or scanned with
  | some row => return row
  | none => throw (.storage (.notFound s!"volume {quoted volumeId} not found"))

/-- How a set stores its limits: at the row of the path, or as a new one. -/
def postOrPatch (absPath : String) (quota : DirectoryQuota) : VastWrite :=
  match api.getQuotaByPath absPath with
  | some existing => .patch existing.id (hardToBody quota.hard)
  | none =>
    let leaf := (Text.split '/' (trimRight absPath)).getLast?.getD ""
    let name := ((quota.attributes.get? "name").filter (· ≠ "")).getD (.ofList (leaf.toList.take 64))
    .post absPath name (hardToBody quota.hard)

/-- `VastApi.set_directory_quota`, with the request it changes quotas by. -/
def setDirectoryQuota (quota : DirectoryQuota) : Except VastError DirectoryQuota × List VastWrite :=
  match api.resolveTenant (some quota.tenantId) with
  | .error error => (.error error, [])
  | .ok resolved =>
    match quota.path with
    | none =>
      (.error (.storage (.validation
        "set_directory_quota requires `quota.path` (VAST id_assignment='backend')")), [])
    | some path =>
      match api.volumeQuota quota.volumeId with
      | .error error => (.error error, [])
      | .ok volume =>
        let root := normPath volume.path
        let write := api.postOrPatch (joinVolPath root path) quota
        ((api.backend.answer write).map fun stored ↦
          quotaToDirectoryQuota stored resolved quota.volumeId root, [write])

/-- The row a delete is about: the one at the path, or the one of the id when it lies under the root. -/
def quotaToDelete (root : String) (req : DirectoryQuotaKeys) : Except VastError (Option VastRow) :=
  match req.path with
  | some path => .ok (api.getQuotaByPath (joinVolPath root path))
  | none => (api.getQuotaById (req.id.getD "")).map
      (Option.filter fun row ↦ isAtOrUnder row.path root)

/-- `VastApi.delete_directory_quota`, with the request it changes quotas by. -/
def deleteDirectoryQuota (req : DirectoryQuotaKeys) : Except VastError Unit × List VastWrite :=
  if req.path = none ∧ req.id = none then
    (.error (.storage (.validation
      "delete_directory_quota requires at least one of `path` or `id`")), [])
  else
    match api.resolveTenant req.tenantId with
    | .error error => (.error error, [])
    | .ok _ =>
      match api.volumeQuota req.volumeId with
      | .error error => (.error error, [])
      | .ok volume =>
        match api.quotaToDelete (normPath volume.path) req with
        | .error error => (.error error, [])
        | .ok none => (.ok (), [])
        | .ok (some row) =>
          if req.id.any (· ≠ toString row.id) then
            (.error (.storage (.conflict
              (s!"directory quota lookup mismatch: requested path={quoted req.path}, " ++
                s!"id={quoted req.id}; found path={quoted row.path}, id={row.id}"))), [])
          else
            let write := .delete row.id
            ((api.backend.answer write).map fun _ ↦ (), [write])

end VastApi

/-! ## Numbers in volume ids -/

section Numbers

variable {host : VastHost}

theorem isDigit_toString {c : Char} {number : ℕ} (h : c ∈ (toString number).toList) :
    c.isDigit = true := by
  rw [Nat.toString_eq_repr, Nat.toList_repr] at h
  exact Nat.isDigit_of_mem_toDigits (by decide) (by decide) h

theorem isdigit_toString (number : ℕ) : host.isdigit (toString number) = true := by
  have hne : (toString number).toList ≠ [] := by
    rw [Nat.toString_eq_repr, Nat.toList_repr]
    exact Nat.toDigits_ne_nil
  rw [VastHost.isdigit, Bool.and_eq_true, Bool.not_eq_true', List.isEmpty_eq_false_iff, List.all_eq_true]
  exact ⟨hne, fun c hc ↦ (host.asciiDigit c (isDigit_toString hc)).1⟩

theorem mapM_decimal {digits : List Char} (h : ∀ c ∈ digits, c.isDigit = true) :
    digits.mapM host.decimal = some (digits.map fun c ↦ c.toNat - '0'.toNat) := by
  induction digits with
  | nil => rfl
  | cons c rest ih =>
    have hrest := ih fun digit hdigit ↦ h digit (List.mem_cons_of_mem c hdigit)
    rw [List.mapM_cons, (host.asciiDigit c (h c List.mem_cons_self)).2.1, hrest]
    rfl

theorem strip_toString (number : ℕ) : host.strip (toString number) = toString number := by
  have hspace : ∀ c ∈ (toString number).toList, host.isSpace c = false := fun c hc ↦
    (host.asciiDigit c (isDigit_toString hc)).2.2
  have hleft : (toString number).toList.dropWhile host.isSpace = (toString number).toList := by
    rw [List.dropWhile_eq_self_iff]
    intro hpos
    rw [hspace _ (List.getElem_mem hpos)]
    decide
  have hright : (toString number).toList.rdropWhile host.isSpace = (toString number).toList := by
    rw [List.rdropWhile_eq_self_iff]
    intro hne
    rw [hspace _ (List.getLast_mem hne)]
    decide
  rw [Unicode.strip, hleft, hright, String.ofList_toList]

/-- The text of a number is read as that number, unless it has too many digits to be read. -/
theorem natural_toString {number value : ℕ}
    (h : host.natural (toString number).toList = some value) : value = number := by
  have hdash : '_' ∉ (toString number).toList := fun hmem ↦
    absurd (isDigit_toString hmem) (by decide)
  have hdigits : ∀ c ∈ (toString number).toList, c.isDigit = true := fun _ ↦ isDigit_toString
  rw [Numerals.natural, List.splitOn_eq_singleton hdash, List.flatten_singleton,
    mapM_decimal hdigits] at h
  split at h
  · cases h
  · rw [Option.bind_some] at h
    split at h
    · cases h
    · rw [Option.some.injEq, List.foldl_map] at h
      rw [← h, Nat.toString_eq_repr, Nat.toList_repr, ← Nat.ofDigitChars_eq_foldl,
        Nat.ofDigitChars_toDigits (by decide) (by decide)]

theorem int_toString {number : ℕ} {value : ℤ} (h : host.int (toString number) = some value) :
    value = number := by
  rw [Numerals.int, strip_toString] at h
  have hdigits : ∀ c ∈ (toString number).toList, c.isDigit = true := fun _ ↦ isDigit_toString
  split at h
  · next rest htext =>
    exact absurd (hdigits '-' (htext ▸ List.mem_cons_self)) (by decide)
  · next rest htext =>
    exact absurd (hdigits '+' (htext ▸ List.mem_cons_self)) (by decide)
  · have ⟨read, hread, hvalue⟩ := Option.map_eq_some_iff.mp h
    rw [← hvalue, natural_toString hread]
    rfl

end Numbers

/-! ## Absolute paths -/

/-- A path as the backend keeps it: behind one slash, without a component which goes up. -/
structure Absolute (path : String) : Prop where
  slash : ∃ name, path = "/" ++ name ∧ trimLeft name = name
  names : ".." ∉ Text.pathParts path

section Paths

variable {path root rel : String}

theorem dropWhile_concat_dropWhile {α : Type} {p : α → Bool} (items : List α) (last : α) :
    (items.dropWhile p ++ [last]).dropWhile p = (items ++ [last]).dropWhile p := by
  rw [List.dropWhile_append, List.dropWhile_append, List.dropWhile_idempotent]

theorem trimRight_append_trimRight (c : Char) (text : List Char) :
    (c :: text.rdropWhile (· == '/')).rdropWhile (· == '/') = (c :: text).rdropWhile (· == '/') := by
  simp only [List.rdropWhile, List.reverse_cons, List.reverse_reverse]
  rw [dropWhile_concat_dropWhile]

theorem toList_slash_append (text : String) : ("/" ++ text).toList = '/' :: text.toList := by
  rw [String.toList_append]
  rfl

/-- Without its slashes behind, a normalised path is empty for the root. -/
theorem trimRight_normPath (path : String) : trimRight (normPath path) = Storage.normPath path := by
  have hlast : (trim path).toList.rdropWhile (· == '/') = (trim path).toList := by
    rw [trim, String.toList_ofList, List.rdropWhile_idempotent]
  rw [trimRight, normPath, toList_slash_append, Storage.normPath]
  by_cases h : trim path = ""
  · rw [h]
    rfl
  · have hne : (trim path).toList ≠ [] := fun heq ↦ h (String.toList_eq_nil_iff.mp heq)
    rw [if_neg h, ← String.toList_inj, String.toList_ofList, toList_slash_append,
      List.rdropWhile_eq_self_iff]
    intro hcons
    rw [List.getLast_cons hne]
    exact List.rdropWhile_eq_self_iff.mp hlast hne

/-- An absolute path is its normalised one but for slashes behind. -/
theorem Absolute.trimRight_eq (h : Absolute path) : trimRight path = Storage.normPath path := by
  have ⟨name, hpath, hname⟩ := h.slash
  have hslash : trimRight (normPath path) = trimRight path := by
    have htrim : trim path = trimRight name := by
      rw [trim_eq, hpath, trimLeft, toList_slash_append, List.dropWhile_cons_of_pos (by decide)]
      rw [← trimLeft, hname, trimRight]
    rw [normPath, htrim, hpath]
    simp only [trimRight, toList_slash_append, String.toList_ofList]
    rw [trimRight_append_trimRight]
  rw [← hslash, trimRight_normPath]

theorem pathParts_trimRight (path : String) :
    Text.pathParts (trimRight path) = Text.pathParts path := by
  rw [trimRight, Directory.pathParts_rdropWhile, String.ofList_toList]

theorem pathParts_trim (path : String) : Text.pathParts (trim path) = Text.pathParts path := by
  rw [trim, Directory.pathParts_rdropWhile, Directory.pathParts_dropWhile, String.ofList_toList]

theorem pathParts_slash_append (front back : String) :
    Text.pathParts (front ++ "/" ++ back) = Text.pathParts front ++ Text.pathParts back := by
  have hlist : front ++ "/" ++ back = .ofList (front.toList ++ '/' :: back.toList) := by
    rw [← String.toList_inj, String.toList_ofList, String.toList_append, String.toList_append,
      List.append_assoc]
    rfl
  rw [hlist, Directory.pathParts_join, String.ofList_toList, String.ofList_toList]

theorem pathParts_slash (text : String) : Text.pathParts ("/" ++ text) = Text.pathParts text := by
  have h := pathParts_slash_append "" text
  rwa [String.empty_append] at h

theorem pathParts_normPath (path : String) :
    Text.pathParts (normPath path) = Text.pathParts path := by
  rw [normPath, pathParts_slash, pathParts_trim]

/-- A joined path has the components of both, so two dots in a request go up from the volume. -/
theorem pathParts_joinVolPath (root rel : String) : Text.pathParts (joinVolPath root rel) =
    Text.pathParts root ++ Text.pathParts rel := by
  have hbase : Text.pathParts (trimRight (normPath root)) = Text.pathParts root := by
    rw [pathParts_trimRight, pathParts_normPath]
  have hempty : Text.pathParts "" = [] := Directory.pathParts_nil
  rw [← hbase, ← pathParts_trim rel]
  unfold joinVolPath
  by_cases hrel : trim rel = "" <;> by_cases hroot : trimRight (normPath root) = ""
  · have hslash := pathParts_slash ""
    rw [String.append_empty] at hslash
    simp only [hrel, hroot, ne_eq, not_true_eq_false, if_true, if_false, hempty, hslash,
      List.append_nil]
  · simp only [hrel, hroot, ne_eq, not_false_eq_true, if_true, hempty, List.append_nil]
  · simp only [hrel, hroot, ne_eq, not_true_eq_false, if_false, hempty, pathParts_slash,
      List.nil_append]
  · simp only [hrel, hroot, ne_eq, not_false_eq_true, if_false, if_true, pathParts_slash_append]

/-- Below absolute paths the check on the texts of the paths is one on their components. -/
theorem atOrUnder_of_isAtOrUnder (hpath : Absolute path) (hroot : Absolute root)
    (h : isAtOrUnder path root = true) : Directory.AtOrUnder root path := by
  have hparts : Text.pathParts root <+: Text.pathParts path := by
    rw [isAtOrUnder, Bool.or_eq_true, beq_iff_eq] at h
    rw [← pathParts_trimRight root, ← pathParts_trimRight path]
    match h with
    | .inl heq => rw [heq]
    | .inr hstart =>
      have ⟨rest, hrest⟩ := List.isPrefixOf_iff_prefix.mp hstart
      have htext : trimRight path = trimRight root ++ "/" ++ .ofList rest := by
        rw [← String.toList_inj, String.toList_append, String.toList_ofList, hrest]
      rw [htext, pathParts_slash_append]
      exact List.prefix_append _ _
  rw [Directory.AtOrUnder, Directory.named, Directory.named, Directory.walk_of_notMem hpath.names,
    Directory.walk_of_notMem hroot.names]
  exact hparts

theorem absolute_normPath (h : Absolute path) : Absolute (normPath path) where
  slash := ⟨trim path, rfl, trimLeft_trim path⟩
  names := by rw [pathParts_normPath]; exact h.names

theorem named_congr {other : String} (h : Text.pathParts path = Text.pathParts other) :
    Directory.named path = Directory.named other := by
  rw [Directory.named, Directory.named, h]

theorem atOrUnder_join_iff (h : Text.pathParts path = Text.pathParts root ++ Text.pathParts rel) :
    Directory.AtOrUnder root path ↔ Directory.Stays root rel := by
  have hnamed : Directory.named path = Directory.walk (Directory.named root) (Text.pathParts rel) := by
    rw [Directory.named, h, Directory.walk_append]
    rfl
  rw [Directory.AtOrUnder, Directory.Stays, hnamed]

end Paths

/-! ## The row a volume id names -/

/-- The quotas of a backend have distinct ids and distinct absolute paths. -/
structure Quotas (rows : List VastRow) : Prop where
  ids : (rows.map VastRow.id).Nodup
  paths : (rows.map fun row ↦ normPath row.path).Nodup
  absolute : ∀ row ∈ rows, Absolute row.path

/-- The paths of the rows a request creates, changes or deletes. -/
def touched (rows : List VastRow) : VastWrite → List String
  | .post path _ _ => [path]
  | .patch id _ => (rows.filter fun row ↦ row.id = id).map VastRow.path
  | .delete id => (rows.filter fun row ↦ row.id = id).map VastRow.path

namespace VastApi

variable {api : VastApi} {volumeId : String} {row other : VastRow}

/-- A volume id is the number of a row. -/
def Numbers (api : VastApi) (volumeId : String) (row : VastRow) : Prop :=
  api.host.isdigit volumeId = true ∧ api.host.int volumeId = some (row.id : ℤ)

/-- A volume id names the row whose number it is; when it is the number of none, the row whose path it
is, or the row at the leaf of its handle below the storage path. -/
def Names (api : VastApi) (volumeId : String) (row : VastRow) : Prop :=
  api.Numbers volumeId row ∨
    volumeId ≠ "" ∧ (∀ other ∈ api.backend.rows, ¬ api.Numbers volumeId other) ∧
      normPath row.path = normPath (api.exportPath volumeId)

/-- The path of a row other than the root is the text of a volume id or occurs in it. -/
def Resembles (volumeId : String) (row : VastRow) : Prop :=
  trim row.path ≠ "" ∧
    (normPath row.path = normPath volumeId ∨ Text.contains volumeId (normPath row.path) = true)

/-- Digits in a volume id are a number Python reads. -/
def Readable (api : VastApi) (volumeId : String) : Prop :=
  api.host.isdigit volumeId = true → api.host.int volumeId ≠ none

theorem eq_of_id (hrows : Quotas api.backend.rows) (hrow : row ∈ api.backend.rows)
    (hother : other ∈ api.backend.rows) (h : row.id = other.id) : row = other :=
  List.inj_on_of_nodup_map hrows.ids hrow hother h

theorem normPath_eq_iff {path other : String} :
    normPath path = normPath other ↔ trim path = trim other := by
  rw [normPath, normPath, String.append_right_inj]

theorem Numbers.id_eq (h : api.Numbers volumeId row) (hother : api.Numbers volumeId other) :
    row.id = other.id := by
  have heq := h.2.symm.trans hother.2
  rwa [Option.some.injEq, Int.natCast_inj] at heq

/-- No two rows are named by one volume id. -/
theorem Names.unique (hrows : Quotas api.backend.rows) (hrow : row ∈ api.backend.rows)
    (hother : other ∈ api.backend.rows) (h : api.Names volumeId row)
    (h' : api.Names volumeId other) : row = other := by
  match h, h' with
  | .inl hnumber, .inl hnumber' => exact eq_of_id hrows hrow hother (hnumber.id_eq hnumber')
  | .inl hnumber, .inr hpath => exact absurd hnumber (hpath.2.1 row hrow)
  | .inr hpath, .inl hnumber => exact absurd hnumber (hpath.2.1 other hother)
  | .inr hpath, .inr hpath' =>
    exact List.inj_on_of_nodup_map hrows.paths hrow hother (hpath.2.2.trans hpath'.2.2.symm)

/-! ## What is looked up -/

theorem getQuotaById_isdigit (hdigit : api.host.isdigit volumeId = true)
    (hread : api.Readable volumeId) :
    ∃ found, api.getQuotaById volumeId = .ok found ∧ (∀ row, found = some row →
      row ∈ api.backend.rows ∧ api.Numbers volumeId row) ∧
      (found = none → ∀ row ∈ api.backend.rows, ¬ api.Numbers volumeId row) := by
  have ⟨number, hnumber⟩ := Option.ne_none_iff_exists'.mp (hread hdigit)
  refine ⟨_, by rw [getQuotaById, hnumber], ?_, ?_⟩
  · intro row hfound
    have hid := List.find?_some hfound
    rw [decide_eq_true_iff] at hid
    exact ⟨List.mem_of_find?_eq_some hfound, hdigit, by rw [hnumber, hid]⟩
  · intro hfound row hrow hnames
    have hid := List.find?_eq_none.mp hfound row hrow
    rw [decide_eq_true_iff] at hid
    have heq := hnumber.symm.trans hnames.2
    rw [Option.some.injEq] at heq
    exact hid heq.symm

theorem getQuotaById_mem {quotaId : String} (h : api.getQuotaById quotaId = .ok (some row)) :
    row ∈ api.backend.rows := by
  unfold getQuotaById at h
  match hint : api.host.int quotaId with
  | none =>
    rw [hint] at h
    exact (nomatch h)
  | some number =>
    rw [hint] at h
    exact List.mem_of_find?_eq_some (Except.ok.inj h)

/-- A row is found by its path, up to slashes behind. -/
theorem getQuotaByPath_some (hrows : Quotas api.backend.rows) {path : String}
    (h : api.getQuotaByPath path = some row) :
    row ∈ api.backend.rows ∧ trim row.path = trim path := by
  have hpath := List.find?_some h
  have hrow := api.backend.atPath_rows _ row (List.mem_of_find?_eq_some h)
  rw [decide_eq_true_iff, (hrows.absolute row hrow).trimRight_eq, trimRight_normPath,
    Storage.normPath_eq_iff] at hpath
  exact ⟨hrow, hpath⟩

theorem getQuotaByPath_none (hrows : Quotas api.backend.rows) {path : String}
    (h : api.getQuotaByPath path = none) (hrow : row ∈ api.backend.rows) :
    trim row.path ≠ trim path := by
  intro heq
  have hpath : trimRight row.path = trimRight (normPath path) := by
    rw [(hrows.absolute row hrow).trimRight_eq, trimRight_normPath, Storage.normPath_eq_iff, heq]
  have hmem := api.backend.atPath_all _ row hrow hpath
  have hfalse := List.find?_eq_none.mp h row hmem
  rw [decide_eq_true_iff] at hfalse
  exact hfalse hpath

theorem contains_of_endsWith {text part : String} (h : endsWith text part = true) :
    Text.contains text part = true := by
  rw [Text.contains, decide_eq_true_iff]
  exact (List.isSuffixOf_iff_suffix.mp h).isInfix

/-- The scan takes a row for its number, or because it resembles the volume id. -/
theorem volumeMatchesQuota_iff (hne : volumeId ≠ "") : volumeMatchesQuota row volumeId = true ↔
    idText row = volumeId ∨ Resembles volumeId row := by
  have hnorm : normPath (trim row.path) = normPath row.path := normPath_eq_iff.mpr (trim_trim _)
  unfold volumeMatchesQuota Resembles
  rw [if_neg hne]
  by_cases hid : idText row = volumeId
  · simp [hid]
  · by_cases hraw : trim row.path = ""
    · simp [hid, hraw]
    · by_cases hpath : normPath row.path = normPath volumeId
      · simp [hraw, hnorm, hpath]
      · simp only [hid, hraw, hnorm, hpath, if_false, false_or, ne_eq, not_false_eq_true, true_and,
          Bool.or_eq_true]
        exact ⟨fun h ↦ h.elim contains_of_endsWith id, Or.inr⟩

/-- The text of an id is a number, so a row is scanned for it only when it was looked up. -/
theorem numbers_of_idText (hne : volumeId ≠ "") (hread : api.Readable volumeId)
    (h : idText row = volumeId) : api.Numbers volumeId row := by
  have htext : volumeId = toString row.id := by
    unfold idText at h
    by_cases hzero : row.id = 0
    · rw [if_pos hzero] at h
      exact absurd h.symm hne
    · rw [if_neg hzero] at h
      exact h.symm
  have hdigit : api.host.isdigit volumeId = true := htext ▸ isdigit_toString row.id
  have ⟨value, hvalue⟩ := Option.ne_none_iff_exists'.mp (hread hdigit)
  have hid : value = row.id := int_toString (htext ▸ hvalue)
  exact ⟨hdigit, by rw [hvalue, hid]⟩

theorem Resembles.ne_empty (h : Resembles volumeId row) : volumeId ≠ "" := by
  intro hempty
  rw [Resembles, hempty] at h
  match h.2 with
  | .inl hpath => exact h.1 (normPath_eq_iff.mp hpath)
  | .inr hcontains =>
    rw [Text.contains, decide_eq_true_iff, normPath, toList_slash_append] at hcontains
    have hlength := hcontains.length_le
    rw [List.length_cons] at hlength
    exact Nat.not_succ_le_zero _ hlength

/-- The three lookups of a volume id, the first of which finds the row of its number. -/
theorem volumeQuota_eq (hread : api.Readable volumeId) : ∃ numbered : Option VastRow,
    (∀ row, numbered = some row → row ∈ api.backend.rows ∧ api.Numbers volumeId row) ∧
    (numbered = none → ∀ row ∈ api.backend.rows, ¬ api.Numbers volumeId row) ∧
    api.volumeQuota volumeId =
      match (numbered.or (if volumeId = "" then none else
          api.getQuotaByPath (api.exportPath volumeId))).or
        (api.backend.rows.find? fun row ↦ volumeMatchesQuota row volumeId) with
      | some row => .ok row
      | none => .error (.storage (.notFound s!"volume {quoted volumeId} not found")) := by
  unfold volumeQuota
  by_cases hdigit : api.host.isdigit volumeId = true
  · have ⟨found, heq, hsome, hnone⟩ := getQuotaById_isdigit hdigit hread
    rw [if_pos hdigit, heq]
    exact ⟨found, hsome, hnone, rfl⟩
  · rw [if_neg hdigit]
    exact ⟨none, fun _ h ↦ (nomatch h), fun _ _ _ h ↦ hdigit h.1, rfl⟩

/-- The row which is named is found, before the scan. -/
theorem volumeQuota_of_names (hrows : Quotas api.backend.rows) (hread : api.Readable volumeId)
    (hrow : row ∈ api.backend.rows) (h : api.Names volumeId row) :
    api.volumeQuota volumeId = .ok row := by
  have ⟨numbered, hsome, hnone, heq⟩ := volumeQuota_eq hread
  rw [heq]
  match numbered with
  | some found =>
    have ⟨hfound, hnumber⟩ := hsome found rfl
    rw [Option.some_or, Option.some_or, Names.unique hrows hrow hfound h (Or.inl hnumber)]
  | none =>
    have ⟨hne, _, hpath⟩ := h.resolve_left (hnone rfl row hrow)
    rw [if_neg hne, Option.none_or]
    match hexport : api.getQuotaByPath (api.exportPath volumeId) with
    | some found =>
      have ⟨hfound, htrim⟩ := getQuotaByPath_some hrows hexport
      have hnamed : api.Names volumeId found :=
        Or.inr ⟨hne, hnone rfl, normPath_eq_iff.mpr htrim⟩
      rw [Option.some_or, Names.unique hrows hrow hfound h hnamed]
    | none => exact absurd (normPath_eq_iff.mp hpath) (getQuotaByPath_none hrows hexport hrow)

/-- When no row is named, what the scan finds decides. -/
theorem volumeQuota_of_unnamed (hrows : Quotas api.backend.rows) (hread : api.Readable volumeId)
    (h : ∀ row ∈ api.backend.rows, ¬ api.Names volumeId row) : api.volumeQuota volumeId =
      match api.backend.rows.find? fun row ↦ volumeMatchesQuota row volumeId with
      | some row => .ok row
      | none => .error (.storage (.notFound s!"volume {quoted volumeId} not found")) := by
  have ⟨numbered, hsome, hnone, heq⟩ := volumeQuota_eq hread
  rw [heq]
  match numbered with
  | some found =>
    have ⟨hfound, hnumber⟩ := hsome found rfl
    exact absurd (Or.inl hnumber) (h found hfound)
  | none =>
    by_cases hne : volumeId = ""
    · rw [if_pos hne, Option.none_or, Option.none_or]
    · rw [if_neg hne, Option.none_or]
      match hexport : api.getQuotaByPath (api.exportPath volumeId) with
      | some found =>
        have ⟨hfound, htrim⟩ := getQuotaByPath_some hrows hexport
        exact absurd (Or.inr ⟨hne, hnone rfl, normPath_eq_iff.mpr htrim⟩) (h found hfound)
      | none => rw [Option.none_or]

theorem volumeMatchesQuota_unnamed (hread : api.Readable volumeId)
    (h : ¬ api.Names volumeId row) :
    volumeMatchesQuota row volumeId = true ↔ Resembles volumeId row := by
  by_cases hne : volumeId = ""
  · unfold volumeMatchesQuota
    rw [if_pos hne]
    exact ⟨fun hfalse ↦ (nomatch hfalse), fun hlike ↦ absurd hne hlike.ne_empty⟩
  · rw [volumeMatchesQuota_iff hne]
    exact ⟨fun hor ↦ hor.resolve_left fun hid ↦ h (Or.inl (numbers_of_idText hne hread hid)), Or.inr⟩

/-! ## What the requests touch -/

/-- What a lookup by volume id answers: the row which is named, and an error where none is. -/
structure Resolved (api : VastApi) (volumeId : String) : Prop where
  named : ∀ row, api.volumeQuota volumeId = .ok row →
    row ∈ api.backend.rows ∧ api.Names volumeId row
  unnamed : ∀ error, api.volumeQuota volumeId = .error error →
    (∀ row ∈ api.backend.rows, ¬ api.Names volumeId row) ∧
      ∃ message, error = .storage (.notFound message)

/-- Requests touch rows at or under the path of the row a volume id names only. -/
def Confined (api : VastApi) (volumeId : String) (writes : List VastWrite) : Prop :=
  ∀ write ∈ writes, ∀ path ∈ touched api.backend.rows write,
    ∃ row ∈ api.backend.rows, api.Names volumeId row ∧ Directory.AtOrUnder row.path path

/-- Requests with a volume id and a path keep to the volume, whatever else they ask for. -/
structure Keeps (api : VastApi) (volumeId : String) (path : Option String) : Prop where
  resolved : api.Resolved volumeId
  set : ∀ quota : DirectoryQuota, quota.volumeId = volumeId → quota.path = path →
    api.Confined volumeId (api.setDirectoryQuota quota).2
  delete : ∀ req : DirectoryQuotaKeys, req.volumeId = volumeId → req.path = path →
    api.Confined volumeId (api.deleteDirectoryQuota req).2

/-- When they do: the digits of the volume id can be read, some row is named or none resembles, and from
the named row the path of the request does not lead out. -/
structure Safe (api : VastApi) (volumeId : String) (path : Option String) : Prop where
  readable : api.Readable volumeId
  resolves : (∃ row ∈ api.backend.rows, api.Names volumeId row) ∨
    ∀ row ∈ api.backend.rows, ¬ Resembles volumeId row
  stays : ∀ row ∈ api.backend.rows, api.Names volumeId row →
    ∀ rel, path = some rel → Directory.Stays row.path rel

theorem resolved_ok (h : api.volumeQuota volumeId = .ok row) :
    api.Resolved volumeId ↔ row ∈ api.backend.rows ∧ api.Names volumeId row := by
  refine ⟨fun hresolved ↦ hresolved.named row h, fun hrow ↦ ⟨?_, ?_⟩⟩
  · intro other hother
    rwa [← Except.ok.inj (h.symm.trans hother)]
  · intro error herror
    exact (nomatch h.symm.trans herror)

theorem resolved_error {error : VastError} (h : api.volumeQuota volumeId = .error error) :
    api.Resolved volumeId ↔ (∀ row ∈ api.backend.rows, ¬ api.Names volumeId row) ∧
      ∃ message, error = .storage (.notFound message) := by
  refine ⟨fun hresolved ↦ hresolved.unnamed error h, fun hnone ↦ ⟨?_, ?_⟩⟩
  · intro row hrow
    exact (nomatch h.symm.trans hrow)
  · intro other hother
    rwa [← Except.error.inj (h.symm.trans hother)]

theorem resolved_iff (hrows : Quotas api.backend.rows) : api.Resolved volumeId ↔
    api.Readable volumeId ∧ ((∃ row ∈ api.backend.rows, api.Names volumeId row) ∨
      ∀ row ∈ api.backend.rows, ¬ Resembles volumeId row) := by
  by_cases hread : api.Readable volumeId
  · by_cases hnamed : ∃ row ∈ api.backend.rows, api.Names volumeId row
    · have ⟨row, hrow, h⟩ := hnamed
      rw [resolved_ok (volumeQuota_of_names hrows hread hrow h)]
      exact ⟨fun _ ↦ ⟨hread, Or.inl hnamed⟩, fun _ ↦ ⟨hrow, h⟩⟩
    · have hnone : ∀ row ∈ api.backend.rows, ¬ api.Names volumeId row := fun row hrow h ↦
        hnamed ⟨row, hrow, h⟩
      have hvolume := volumeQuota_of_unnamed hrows hread hnone
      match hscan : api.backend.rows.find? fun row ↦ volumeMatchesQuota row volumeId with
      | some row =>
        rw [hscan] at hvolume
        rw [resolved_ok hvolume]
        have hrow := List.mem_of_find?_eq_some hscan
        have hmatch := List.find?_some hscan
        have hlike := (volumeMatchesQuota_unnamed hread (hnone row hrow)).mp hmatch
        exact ⟨fun h ↦ absurd h.2 (hnone row hrow),
          fun h ↦ absurd hlike (h.2.resolve_left hnamed row hrow)⟩
      | none =>
        rw [hscan] at hvolume
        rw [resolved_error hvolume]
        have hunlike : ∀ row ∈ api.backend.rows, ¬ Resembles volumeId row := fun row hrow hlike ↦
          List.find?_eq_none.mp hscan row hrow
            ((volumeMatchesQuota_unnamed hread (hnone row hrow)).mpr hlike)
        exact ⟨fun _ ↦ ⟨hread, Or.inr hunlike⟩, fun _ ↦ ⟨hnone, _, rfl⟩⟩
  · have ⟨hdigit, hint⟩ := Classical.not_imp.mp hread
    have herror : api.volumeQuota volumeId = .error (.storage (.validation
        s!"volume_id {quoted volumeId} is not a VAST quota id")) := by
      unfold volumeQuota getQuotaById
      rw [if_pos hdigit, not_not.mp hint]
      rfl
    rw [resolved_error herror]
    exact ⟨fun h ↦ (nomatch h.2.choose_spec), fun h ↦ absurd h.1 hread⟩

/-- A set writes once, at the path of the request joined to the volume. -/
theorem mem_setDirectoryQuota {quota : DirectoryQuota} {write : VastWrite}
    (h : write ∈ (api.setDirectoryQuota quota).2) : ∃ path volume, quota.path = some path ∧
      api.volumeQuota quota.volumeId = .ok volume ∧
      write = api.postOrPatch (joinVolPath (normPath volume.path) path) quota := by
  unfold setDirectoryQuota at h
  match htenant : api.resolveTenant (some quota.tenantId) with
  | .error error => rw [htenant] at h; exact (nomatch h)
  | .ok resolved =>
    rw [htenant] at h
    match hpath : quota.path with
    | none => rw [hpath] at h; exact (nomatch h)
    | some path =>
      rw [hpath] at h
      match hvolume : api.volumeQuota quota.volumeId with
      | .error error => rw [hvolume] at h; exact (nomatch h)
      | .ok volume =>
        rw [hvolume] at h
        exact ⟨path, volume, rfl, rfl, List.mem_singleton.mp h⟩

/-- A delete writes once, at the row it is about. -/
theorem mem_deleteDirectoryQuota {req : DirectoryQuotaKeys} {write : VastWrite}
    (h : write ∈ (api.deleteDirectoryQuota req).2) : ∃ volume row,
      api.volumeQuota req.volumeId = .ok volume ∧
      api.quotaToDelete (normPath volume.path) req = .ok (some row) ∧ write = .delete row.id := by
  unfold deleteDirectoryQuota at h
  by_cases hkeys : req.path = none ∧ req.id = none
  · rw [if_pos hkeys] at h
    exact (nomatch h)
  · rw [if_neg hkeys] at h
    match htenant : api.resolveTenant req.tenantId with
    | .error error => rw [htenant] at h; exact (nomatch h)
    | .ok resolved =>
      rw [htenant] at h
      match hvolume : api.volumeQuota req.volumeId with
      | .error error => rw [hvolume] at h; exact (nomatch h)
      | .ok volume =>
        simp only [hvolume] at h
        match htarget : api.quotaToDelete (normPath volume.path) req with
        | .error error => rw [htarget] at h; exact (nomatch h)
        | .ok none => rw [htarget] at h; exact (nomatch h)
        | .ok (some row) =>
          rw [htarget] at h
          by_cases hid : (req.id.any (· ≠ toString row.id)) = true
          · simp only [hid, if_true] at h
            exact (nomatch h)
          · simp only [hid] at h
            exact ⟨volume, row, rfl, htarget, List.mem_singleton.mp h⟩

/-- A row under the volume is told by its id as well as by its path. -/
theorem mem_touched_id (hrows : Quotas api.backend.rows) (hrow : row ∈ api.backend.rows) {path : String}
    (h : path ∈ (api.backend.rows.filter fun other ↦ other.id = row.id).map VastRow.path) :
    path = row.path := by
  have ⟨other, hother, hpath⟩ := List.mem_map.mp h
  rw [List.mem_filter, decide_eq_true_iff] at hother
  rw [← hpath, eq_of_id hrows hother.1 hrow hother.2]

theorem touched_postOrPatch (hrows : Quotas api.backend.rows) {absPath path : String}
    {quota : DirectoryQuota} (h : path ∈ touched api.backend.rows (api.postOrPatch absPath quota)) :
    Text.pathParts path = Text.pathParts absPath := by
  unfold postOrPatch at h
  match hfound : api.getQuotaByPath absPath with
  | some existing =>
    have ⟨hrow, htrim⟩ := getQuotaByPath_some hrows hfound
    rw [hfound] at h
    rw [mem_touched_id hrows hrow h, ← pathParts_trim, htrim, pathParts_trim]
  | none =>
    rw [hfound] at h
    rw [List.mem_singleton.mp h]

theorem exists_touched_postOrPatch (hrows : Quotas api.backend.rows) (absPath : String)
    (quota : DirectoryQuota) :
    ∃ path, path ∈ touched api.backend.rows (api.postOrPatch absPath quota) := by
  unfold postOrPatch
  match hfound : api.getQuotaByPath absPath with
  | some existing =>
    have hrow := (getQuotaByPath_some hrows hfound).1
    exact ⟨existing.path, List.mem_map_of_mem
      (List.mem_filter.mpr ⟨hrow, decide_eq_true_iff.mpr rfl⟩)⟩
  | none => exact ⟨absPath, List.mem_singleton_self _⟩

theorem confined_set (hrows : Quotas api.backend.rows) {path : Option String}
    (h : api.Safe volumeId path) {quota : DirectoryQuota} (hvolume : quota.volumeId = volumeId)
    (hpath : quota.path = path) : api.Confined volumeId (api.setDirectoryQuota quota).2 := by
  intro write hwrite place hplace
  have ⟨rel, volume, hrel, hfound, heq⟩ := mem_setDirectoryQuota hwrite
  have hresolved := (resolved_iff hrows).mpr ⟨h.readable, h.resolves⟩
  have ⟨hrow, hnames⟩ := hresolved.named volume (hvolume ▸ hfound)
  rw [heq] at hplace
  have hparts := touched_postOrPatch hrows hplace
  rw [pathParts_joinVolPath, pathParts_normPath] at hparts
  exact ⟨volume, hrow, hnames, (atOrUnder_join_iff hparts).mpr
    (h.stays volume hrow hnames rel (hpath ▸ hrel))⟩

theorem confined_delete (hrows : Quotas api.backend.rows) {path : Option String}
    (h : api.Safe volumeId path) {req : DirectoryQuotaKeys} (hvolume : req.volumeId = volumeId)
    (hpath : req.path = path) : api.Confined volumeId (api.deleteDirectoryQuota req).2 := by
  intro write hwrite place hplace
  obtain ⟨volume, row, hfound, htarget, heq⟩ := mem_deleteDirectoryQuota hwrite
  have hresolved := (resolved_iff hrows).mpr ⟨h.readable, h.resolves⟩
  obtain ⟨hmem, hnames⟩ := hresolved.named volume (hvolume ▸ hfound)
  rw [heq] at hplace
  unfold quotaToDelete at htarget
  cases hrel : req.path with
  | some rel =>
    -- the row has the components of the volume and of the request
    rw [hrel, Except.ok.injEq] at htarget
    obtain ⟨hrow, htrim⟩ := getQuotaByPath_some hrows htarget
    have hparts : Text.pathParts place = Text.pathParts volume.path ++ Text.pathParts rel := by
      rw [mem_touched_id hrows hrow hplace, ← pathParts_trim, htrim, pathParts_trim,
        pathParts_joinVolPath, pathParts_normPath]
    exact ⟨volume, hmem, hnames, (atOrUnder_join_iff hparts).mpr
      (h.stays volume hmem hnames rel (hpath ▸ hrel))⟩
  | none =>
    -- the row of the id is compared with the root of the volume
    rw [hrel] at htarget
    cases hget : api.getQuotaById (req.id.getD "") with
    | error error =>
      rw [hget] at htarget
      cases htarget
    | ok found =>
      rw [hget] at htarget
      obtain ⟨hsome, hunder⟩ := Option.filter_eq_some_iff.mp (Except.ok.inj htarget)
      rw [hsome] at hget
      have hrow := getQuotaById_mem hget
      have hroot := absolute_normPath (hrows.absolute volume hmem)
      have hat := atOrUnder_of_isAtOrUnder (hrows.absolute row hrow) hroot hunder
      rw [Directory.AtOrUnder, named_congr (pathParts_normPath volume.path)] at hat
      exact ⟨volume, hmem, hnames, by rw [mem_touched_id hrows hrow hplace]; exact hat⟩

/-- The provider keeps to a volume exactly when the volume id names a row, or resembles none, and the
path of the request does not lead out of it. -/
theorem keeps_iff_safe (api : VastApi) (hrows : Quotas api.backend.rows) (volumeId : String)
    (path : Option String) : api.Keeps volumeId path ↔ api.Safe volumeId path := by
  constructor
  · intro h
    have ⟨hread, hresolves⟩ := (resolved_iff hrows).mp h.resolved
    refine ⟨hread, hresolves, ?_⟩
    intro row hrow hnames rel hrel
    have hvolume := volumeQuota_of_names hrows hread hrow hnames
    let quota : DirectoryQuota := { tenantId := api.tenant, volumeId := volumeId, path := some rel }
    have hwrites : (api.setDirectoryQuota quota).2 =
        [api.postOrPatch (joinVolPath (normPath row.path) rel) quota] := by
      have htenant : api.resolveTenant (some quota.tenantId) = .ok api.tenant := by
        rw [resolveTenant, if_neg (fun hne ↦ hne.2 rfl)]
        rfl
      rw [setDirectoryQuota, htenant]
      simp only [quota, hvolume]
    have ⟨place, hplace⟩ := exists_touched_postOrPatch hrows
      (joinVolPath (normPath row.path) rel) quota
    have hconfined := h.set quota rfl hrel.symm
    rw [hwrites] at hconfined
    have ⟨other, hother, hnames', hunder⟩ := hconfined _ (List.mem_singleton_self _) place hplace
    rw [Names.unique hrows hother hrow hnames' hnames] at hunder
    have hparts := touched_postOrPatch hrows hplace
    rw [pathParts_joinVolPath, pathParts_normPath] at hparts
    exact (atOrUnder_join_iff hparts).mp hunder
  · intro h
    exact ⟨(resolved_iff hrows).mpr ⟨h.readable, h.resolves⟩,
      fun quota hvolume hpath ↦ confined_set hrows h hvolume hpath,
      fun req hvolume hpath ↦ confined_delete hrows h hvolume hpath⟩

/-! ## Two exports of one cluster -/

/-- Numbers of ASCII digits. -/
def asciiHost : VastHost where
  lower := fun text ↦ text
  isSpace := fun c ↦ c == ' '
  isAlnum := Char.isAlphanum
  decimal := fun c ↦ if c.isDigit then some (c.toNat - '0'.toNat) else none
  isDigit := Char.isDigit
  asciiDigit := by
    intro c h
    refine ⟨h, if_pos h, ?_⟩
    rw [beq_eq_false_iff_ne]
    intro hspace
    rw [hspace] at h
    exact absurd h (by decide)

def teamRows : List VastRow :=
  [{ id := 1, path := "/exports/team-a" }, { id := 2, path := "/exports/team-b" }]

/-- Exports of two teams. -/
def teamApi : VastApi where
  host := asciiHost
  tenant := ""
  storagePath := "/exports"
  backend := {
    rows := teamRows
    atPath := fun target ↦ teamRows.filter fun row ↦ trimRight row.path = trimRight target
    answer := fun _ ↦ .ok { id := 1 }
    atPath_rows := fun _ _ h ↦ List.mem_of_mem_filter h
    atPath_all := fun _ _ hrow h ↦ List.mem_filter.mpr ⟨hrow, decide_eq_true_iff.mpr h⟩ }

theorem absolute_teamRows : ∀ row ∈ teamRows, Absolute row.path := by
  have hslash : ∀ row ∈ teamRows, row.path = "/" ++ trimLeft row.path ∧
      trimLeft (trimLeft row.path) = trimLeft row.path ∧ ".." ∉ Text.pathParts row.path := by decide
  exact fun row hrow ↦ ⟨⟨trimLeft row.path, (hslash row hrow).1, (hslash row hrow).2.1⟩,
    (hslash row hrow).2.2⟩

theorem quotas_teamRows : Quotas teamRows where
  ids := by decide
  paths := by decide
  absolute := absolute_teamRows

theorem keeps_team_b : Quotas teamApi.backend.rows ∧
    teamApi.Keeps "team-b" (some "reports/../archive") := by
  refine ⟨quotas_teamRows, (keeps_iff_safe teamApi quotas_teamRows _ _).mpr ⟨?_, ?_, ?_⟩⟩
  · exact fun h ↦ absurd h (by decide)
  · have hnumber : ∀ row ∈ teamRows, ¬ teamApi.Numbers "team-b" row :=
      fun _ _ h ↦ absurd h.1 (by decide)
    exact Or.inl ⟨_, List.mem_cons_of_mem _ List.mem_cons_self,
      Or.inr ⟨by decide, hnumber, by decide⟩⟩
  · intro row hrow _ rel hrel
    cases hrel
    have hstays : ∀ row ∈ teamRows, Directory.Stays row.path "reports/../archive" := by decide
    exact hstays row hrow

/-- Without a row of its own an export is taken for the one whose name its own extends, and a delete
removes the limit of that one. -/
theorem sibling_touched : Quotas teamApi.backend.rows ∧
    (∀ row ∈ teamApi.backend.rows, ¬ teamApi.Names "/exports/team-a2" row) ∧
    (teamApi.deleteDirectoryQuota { volumeId := "/exports/team-a2", path := some "" }).2 = [.delete 1] ∧
    ¬ teamApi.Keeps "/exports/team-a2" (some "") := by
  have hnames : ∀ row ∈ teamApi.backend.rows, ¬ teamApi.Names "/exports/team-a2" row := by
    have hpath : ∀ row ∈ teamRows,
        normPath row.path ≠ normPath (teamApi.exportPath "/exports/team-a2") := by
      decide
    intro row hrow h
    match h with
    | .inl hnumber => exact absurd hnumber.1 (by decide)
    | .inr hother => exact hpath row hrow hother.2.2
  have hfound : teamApi.volumeQuota "/exports/team-a2" = .ok { id := 1, path := "/exports/team-a" } := by
    rfl
  have hdelete : (teamApi.deleteDirectoryQuota
      { volumeId := "/exports/team-a2", path := some "" }).2 = [.delete 1] := by
    rfl
  have hkeeps : ¬ teamApi.Keeps "/exports/team-a2" (some "") := by
    intro h
    have ⟨hrow, hnamed⟩ := h.resolved.named _ hfound
    exact hnames _ hrow hnamed
  exact ⟨quotas_teamRows, hnames, hdelete, hkeeps⟩

end VastApi

end IsvValidation.Storage.Vast
