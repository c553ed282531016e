import IsvValidation.Storage.QuotaStore

/-!
# Looking a directory quota up and deleting it

`get_directory_quota` and the mock's `delete_directory_quota` resolve the keys of a request by two
separate scans. Both stop at the first record which agrees with all keys, and otherwise know the last
record which agrees with one of two keys, so the two requests fail alike, and what the one returns is
what the other removes.
-/

namespace IsvValidation.Storage

open Library Host

/-! ## The two scans -/

/-- `_DirectoryQuotaMatch`. -/
structure DirectoryQuotaMatch where
  full : Option DirectoryQuota := none
  half : Option DirectoryQuota := none

/-- The loop of `_match_directory_quota`. -/
def matchLoop (path id : Option String) :
    List DirectoryQuota → Option DirectoryQuota → DirectoryQuotaMatch
  | [], half => { half }
  | q :: rest, half =>
    let pathMatch := path.isNone || q.path == path
    let idMatch := id.isNone || q.id == id
    if pathMatch && idMatch then { full := some q, half }
    else if path.isSome && id.isSome && (q.path == path || q.id == id) then
      matchLoop path id rest (some q)
    else matchLoop path id rest half

/-- `_match_directory_quota`. -/
def matchDirectoryQuota (quotas : List DirectoryQuota) (path id : Option String) :
    DirectoryQuotaMatch :=
  matchLoop path id quotas none

/-- `StorageProvider.get_directory_quota` over the `list_directory_quotas` of a provider, which may
raise other errors as well. -/
def providerGetDirectoryQuota {ε : Type} (raised : MockError → ε)
    (listDirectoryQuotas : String → Option String → Except ε (List DirectoryQuota))
    (req : DirectoryQuotaKeys) : Except ε DirectoryQuota := do
  if req.path = none ∧ req.id = none then
    throw (raised (.validation "get_directory_quota requires at least one of `path` or `id`"))
  let quotas ← listDirectoryQuotas req.volumeId req.tenantId
  let found := matchDirectoryQuota quotas req.path req.id
  match found.full, found.half with
  | some record, _ => return record
  | none, some half =>
    throw (raised (.conflict
      (s!"directory quota lookup mismatch: requested path={quoted req.path}, " ++
        s!"id={quoted req.id}; found path={quoted half.path}, id={quoted half.id}")))
  | none, none =>
    throw (raised (.notFound (s!"directory quota not found (volume_id={quoted req.volumeId}, " ++
      s!"path={quoted req.path}, id={quoted req.id})")))

/-- The loop of the mock's `delete_directory_quota`, with the index of the next record. -/
def deleteLoop (req : DirectoryQuotaKeys) :
    ℕ → List DirectoryQuota → Option DirectoryQuota → Option ℕ × Option DirectoryQuota
  | _, [], half => (none, half)
  | i, r :: rest, half =>
    let pathMatch := req.path.isNone || r.path == req.path
    let idMatch := req.id.isNone || r.id == req.id
    if pathMatch && idMatch then (some i, half)
    else if req.path.isSome && req.id.isSome && (r.path == req.path || r.id == req.id) then
      deleteLoop req (i + 1) rest (some r)
    else deleteLoop req (i + 1) rest half

/-- The mock's `delete_directory_quota`, as it scans. -/
def MockCore.scanDelete (core : MockCore) (store : Store) (req : DirectoryQuotaKeys) :
    Except MockError Unit × Store :=
  if req.path = none ∧ req.id = none then
    (.error (.validation "delete_directory_quota requires at least one of `path` or `id`"), store)
  else
    match core.resolveTenant req.tenantId with
    | .error error => (.error error, store)
    | .ok resolved =>
      match store.directoryQuotas.get? (resolved, req.volumeId) with
      | none | some [] => (.ok (), store)
      | some records =>
        match deleteLoop req 0 records none with
        | (some i, _) =>
          let changed := store.directoryQuotas.insert (resolved, req.volumeId) (records.eraseIdx i)
          (.ok (), { store with directoryQuotas := changed })
        | (none, some half) =>
          (.error (.conflict (s!"directory quota lookup mismatch on volume {quoted req.volumeId}: " ++
            s!"requested path={quoted req.path}, id={quoted req.id}; " ++
            s!"found path={quoted half.path}, id={quoted half.id}")), store)
        | (none, none) => (.ok (), store)

/-! ## What the scans find -/

section Scans

variable {req : DirectoryQuotaKeys}

theorem isFull_eq {record : DirectoryQuota} : MockCore.isFull req record =
    ((req.path.isNone || record.path == req.path) && (req.id.isNone || record.id == req.id)) := by
  rw [Bool.eq_iff_iff]
  simp [MockCore.isFull]

theorem isPartial_eq {record : DirectoryQuota} : MockCore.isPartial req record =
    (req.path.isSome && req.id.isSome && (record.path == req.path || record.id == req.id)) := by
  rw [Bool.eq_iff_iff]
  simp [MockCore.isPartial, Option.isSome_iff_ne_none, and_assoc]

theorem partialMatch_cons {record : DirectoryQuota} {rest : List DirectoryQuota}
    (h : MockCore.isFull req record = false) : MockCore.partialMatch req (record :: rest) =
      (MockCore.partialMatch req rest).or
        (if MockCore.isPartial req record then some record else none) := by
  rw [MockCore.partialMatch, List.takeWhile_cons, h, Bool.not_false, if_pos rfl, List.filter_cons]
  by_cases hmatch : MockCore.isPartial req record = true
  · rw [if_pos hmatch, if_pos hmatch, List.getLast?_cons]
    rw [MockCore.partialMatch]
    cases (List.filter _ _).getLast? <;> rfl
  · rw [if_neg hmatch, if_neg hmatch, Option.or_none]
    rfl

/-- The scan of the lookup finds the first full match, and the last partial one before it. -/
theorem matchLoop_eq (quotas : List DirectoryQuota) (half : Option DirectoryQuota) :
    matchLoop req.path req.id quotas half =
      { full := quotas.find? (MockCore.isFull req)
        half := (MockCore.partialMatch req quotas).or half } := by
  induction quotas generalizing half with
  | nil => rfl
  | cons q rest ih =>
    rw [matchLoop, ← isFull_eq, ← isPartial_eq, List.find?_cons]
    by_cases hfull : MockCore.isFull req q = true
    · rw [hfull]
      simp [MockCore.partialMatch, hfull]
    · rw [Bool.not_eq_true] at hfull
      rw [hfull, partialMatch_cons hfull]
      by_cases hmatch : MockCore.isPartial req q = true
      · simp only [hmatch, if_true, Bool.false_eq_true, if_false, ih, Option.or_assoc,
          Option.some_or]
      · simp only [hmatch, Bool.false_eq_true, if_false, ih, Option.or_none]

/-- The scan of the deletion finds the place of the first full match, and the same partial one. -/
theorem deleteLoop_eq (records : List DirectoryQuota) (i : ℕ) (half : Option DirectoryQuota) :
    deleteLoop req i records half =
      ((records.findIdx? (MockCore.isFull req)).map (i + ·),
        (MockCore.partialMatch req records).or half) := by
  induction records generalizing i half with
  | nil => rfl
  | cons r rest ih =>
    rw [deleteLoop, ← isFull_eq, ← isPartial_eq, List.findIdx?_cons]
    by_cases hfull : MockCore.isFull req r = true
    · simp [MockCore.partialMatch, hfull]
    · rw [Bool.not_eq_true] at hfull
      have hshift : ((rest.findIdx? (MockCore.isFull req)).map (· + 1)).map (i + ·) =
          (rest.findIdx? (MockCore.isFull req)).map (i + 1 + ·) := by
        rw [Option.map_map]
        congr 1
        funext j
        simp only [Function.comp_apply]
        omega
      rw [hfull, partialMatch_cons hfull, if_neg Bool.false_ne_true, if_neg Bool.false_ne_true, hshift]
      by_cases hmatch : MockCore.isPartial req r = true
      · simp only [hmatch, if_true, ih, Option.or_assoc, Option.some_or]
      · simp only [hmatch, Bool.false_eq_true, if_false, ih, Option.or_none]

end Scans

namespace MockCore

variable (core : MockCore) (store : Store) (req : DirectoryQuotaKeys)

/-- The lookup of the provider is the lookup by first full match. -/
theorem providerGet_eq : providerGetDirectoryQuota id (core.listDirectoryQuotas store) req =
    core.getDirectoryQuota store req := by
  unfold providerGetDirectoryQuota getDirectoryQuota matchDirectoryQuota
  simp only [matchLoop_eq, Option.or_none]
  rfl

/-- The deletion by scanning is the deletion of the first full match. -/
theorem scanDelete_eq : core.scanDelete store req = core.deleteDirectoryQuota store req := by
  unfold scanDelete deleteDirectoryQuota
  by_cases hkeys : req.path = none ∧ req.id = none
  · rw [if_pos hkeys, if_pos hkeys]
  rw [if_neg hkeys, if_neg hkeys]
  cases core.resolveTenant req.tenantId with
  | error error => rfl
  | ok resolved =>
    simp only
    rcases hget : store.directoryQuotas.get? (resolved, req.volumeId) with _ | _ | ⟨record, rest⟩
    · have hheld : records store resolved req.volumeId = [] := by rw [records, hget]; rfl
      rw [hheld]
      rfl
    · have hheld : records store resolved req.volumeId = [] := by rw [records, hget]; rfl
      rw [hheld]
      rfl
    · have hheld : records store resolved req.volumeId = record :: rest := by rw [records, hget]; rfl
      rw [hheld]
      simp only [deleteLoop_eq, Option.or_none, Nat.zero_add, Option.map_id']
      cases hfound : (record :: rest).findIdx? (isFull req) with
      | some i =>
        have hany : (record :: rest).any (isFull req) = true := by
          rw [← List.findIdx?_isSome, hfound]
          rfl
        rw [if_pos hany, List.eraseP_eq_eraseIdx, hfound]
      | none =>
        have hany : ¬ (record :: rest).any (isFull req) = true := by
          rw [← List.findIdx?_isSome, hfound]
          exact Bool.false_ne_true
        rw [if_neg hany]
        cases partialMatch req (record :: rest) <;> rfl

/-- A lookup or a deletion names some key. -/
def NamesKey : Prop := ¬ (req.path = none ∧ req.id = none)

variable {core store req} {resolved : String}

/-- The store without the first record which agrees with all keys. -/
def without (store : Store) (resolved : String) (req : DirectoryQuotaKeys) : Store :=
  { store with
    directoryQuotas := store.directoryQuotas.insert (resolved, req.volumeId)
      ((records store resolved req.volumeId).eraseP (isFull req)) }

/-- The three ways in which the two requests end once the tenant is known. -/
inductive Ends (core : MockCore) (store : Store) (req : DirectoryQuotaKeys) (resolved : String) : Prop
  | found (record : DirectoryQuota)
      (full : (records store resolved req.volumeId).find? (isFull req) = some record)
      (got : core.getDirectoryQuota store req = .ok record)
      (deleted : core.deleteDirectoryQuota store req = (.ok (), without store resolved req))
  | conflict (message text : String)
      (full : (records store resolved req.volumeId).find? (isFull req) = none)
      (half : (partialMatch req (records store resolved req.volumeId)).isSome = true)
      (got : core.getDirectoryQuota store req = .error (.conflict message))
      (deleted : core.deleteDirectoryQuota store req = (.error (.conflict text), store))
  | absent (full : (records store resolved req.volumeId).find? (isFull req) = none)
      (half : (partialMatch req (records store resolved req.volumeId)).isSome = false)
      (got : core.getDirectoryQuota store req =
        .error (.notFound (s!"directory quota not found (volume_id={quoted req.volumeId}, " ++
          s!"path={quoted req.path}, id={quoted req.id})")))
      (deleted : core.deleteDirectoryQuota store req = (.ok (), store))

theorem ends (hkeys : NamesKey req) (htenant : core.resolveTenant req.tenantId = .ok resolved) :
    Ends core store req resolved := by
  have hgot : core.getDirectoryQuota store req = core.getDirectoryQuota store req := rfl
  have hdeleted : core.deleteDirectoryQuota store req = core.deleteDirectoryQuota store req := rfl
  conv_rhs at hgot =>
    unfold getDirectoryQuota listDirectoryQuotas
    rw [if_neg hkeys, htenant]
    simp only [bind, Except.bind, pure, Except.pure]
  conv_rhs at hdeleted =>
    unfold deleteDirectoryQuota
    rw [if_neg hkeys, htenant]
    simp only
  match hfull : (records store resolved req.volumeId).find? (isFull req) with
  | some record =>
    have hany : (records store resolved req.volumeId).any (isFull req) = true :=
      List.any_eq_true.mpr ⟨record, List.mem_of_find?_eq_some hfull, List.find?_some hfull⟩
    rw [hfull] at hgot
    rw [if_pos hany] at hdeleted
    exact .found record hfull hgot hdeleted
  | none =>
    have hany : ¬ (records store resolved req.volumeId).any (isFull req) = true := by
      rw [List.find?_eq_none] at hfull
      intro h
      have ⟨record, hrecord, hmatch⟩ := List.any_eq_true.mp h
      exact hfull record hrecord hmatch
    rw [hfull] at hgot
    rw [if_neg hany] at hdeleted
    match hhalf : partialMatch req (records store resolved req.volumeId) with
    | some half =>
      rw [hhalf] at hgot hdeleted
      exact .conflict _ _ hfull (by rw [hhalf]; rfl) hgot hdeleted
    | none =>
      rw [hhalf] at hgot hdeleted
      exact .absent hfull (by rw [hhalf]; rfl) hgot hdeleted

theorem records_without : records (without store resolved req) resolved req.volumeId =
    (records store resolved req.volumeId).eraseP (isFull req) := by
  rw [records, without, OrderedMap.get?_insert, if_pos rfl]
  rfl

theorem without_ne {record : DirectoryQuota}
    (h : (records store resolved req.volumeId).find? (isFull req) = some record) :
    without store resolved req ≠ store := by
  intro heq
  have hlength := congrArg (fun store ↦ (records store resolved req.volumeId).length) heq
  simp only [records_without] at hlength
  have hmem := List.mem_of_find?_eq_some h
  have hfull := List.find?_some h
  rw [List.length_eraseP_of_mem hmem hfull] at hlength
  have hpos := List.length_pos_of_mem hmem
  omega

theorem getDirectoryQuota_keyless (h : req.path = none ∧ req.id = none) :
    core.getDirectoryQuota store req = .error (.validation
      "get_directory_quota requires at least one of `path` or `id`") := by
  unfold getDirectoryQuota
  rw [if_pos h]
  rfl

theorem deleteDirectoryQuota_keyless (h : req.path = none ∧ req.id = none) :
    core.deleteDirectoryQuota store req = (.error (.validation
      "delete_directory_quota requires at least one of `path` or `id`"), store) := by
  unfold deleteDirectoryQuota
  rw [if_pos h]

theorem getDirectoryQuota_unknown {error : MockError} (hkeys : NamesKey req)
    (h : core.resolveTenant req.tenantId = .error error) :
    core.getDirectoryQuota store req = .error error := by
  unfold getDirectoryQuota listDirectoryQuotas
  rw [if_neg hkeys, h]
  rfl

theorem deleteDirectoryQuota_unknown {error : MockError} (hkeys : NamesKey req)
    (h : core.resolveTenant req.tenantId = .error error) :
    core.deleteDirectoryQuota store req = (.error error, store) := by
  unfold deleteDirectoryQuota
  rw [if_neg hkeys, h]

/-! ## Agreement -/

/-- The two requests fail alike, and otherwise the one removes what the other returns. -/
structure ResolvedAlike (core : MockCore) (store : Store) (req : DirectoryQuotaKeys)
    (got : Except MockError DirectoryQuota) (deleted : Except MockError Unit × Store) : Prop where
  conflict : (∃ message, deleted.1 = .error (.conflict message)) ↔
    ∃ message, got = .error (.conflict message)
  validation : (∃ message, deleted.1 = .error (.validation message)) ↔
    ∃ message, got = .error (.validation message)
  absent : (core.resolveTenant req.tenantId).isOk →
    (deleted = (.ok (), store) ↔ ∃ message, got = .error (.notFound message))
  unknownTenant : NamesKey req → ∀ error, core.resolveTenant req.tenantId = .error error →
    got = .error error ∧ deleted = (.error error, store)
  removes : ∀ record, got = .ok record → deleted.1 = .ok () ∧
    ∃ resolved before after, core.resolveTenant req.tenantId = .ok resolved ∧
      records store resolved req.volumeId = before ++ record :: after ∧
      records deleted.2 resolved req.volumeId = before ++ after ∧
      (∀ place ≠ (resolved, req.volumeId),
        deleted.2.directoryQuotas.get? place = store.directoryQuotas.get? place) ∧
      deleted.2.volumes = store.volumes ∧ deleted.2.userQuotas = store.userQuotas
  removesOnly : deleted.2 ≠ store → ∃ record, got = .ok record

theorem resolveTenant_error {tenantId : Option String} {error : MockError}
    (h : core.resolveTenant tenantId = .error error) : ∃ message, error = .notFound message := by
  unfold resolveTenant at h
  simp only at h
  split_ifs at h
  exact ⟨_, (Except.error.inj h).symm⟩

theorem resolvedAlike (core : MockCore) (store : Store) (req : DirectoryQuotaKeys) :
    ResolvedAlike core store req (core.getDirectoryQuota store req)
      (core.deleteDirectoryQuota store req) := by
  by_cases hkeys : NamesKey req
  · match htenant : core.resolveTenant req.tenantId with
    | .error error =>
      have ⟨message, hmessage⟩ := resolveTenant_error htenant
      rw [getDirectoryQuota_unknown hkeys htenant, deleteDirectoryQuota_unknown hkeys htenant,
        hmessage]
      exact {
        conflict := by simp
        validation := by simp
        absent := fun hok ↦ by rw [htenant] at hok; exact nomatch hok
        unknownTenant := fun _ error' herror ↦ by
          rw [htenant, Except.error.injEq] at herror
          rw [← herror, hmessage]
          exact ⟨rfl, rfl⟩
        removes := fun record h ↦ nomatch h
        removesOnly := fun h ↦ absurd rfl h }
    | .ok resolved =>
      cases @ends core store req resolved hkeys htenant with
      | found record hfull hgot hdeleted =>
        rw [hgot, hdeleted]
        have ⟨hmatch, before, after, hsplit, hbefore⟩ := List.find?_eq_some_iff_append.mp hfull
        have herase : records (without store resolved req) resolved req.volumeId =
            before ++ after := by
          rw [records_without, hsplit, List.eraseP_append_right _ fun other hother ↦ by
            simpa using hbefore other hother, List.eraseP_cons_of_pos hmatch]
        exact {
          conflict := by simp
          validation := by simp
          absent := fun _ ↦ by simp [without_ne hfull]
          unknownTenant := fun _ error herror ↦ by rw [htenant] at herror; exact nomatch herror
          removes := fun found h ↦ by
            rw [← Except.ok.inj h]
            refine ⟨rfl, resolved, before, after, htenant, hsplit, herase, ?_, rfl, rfl⟩
            intro place hplace
            rw [without, OrderedMap.get?_insert, if_neg hplace]
          removesOnly := fun _ ↦ ⟨record, rfl⟩ }
      | conflict | absent =>
        rename_i hgot hdeleted
        rw [hgot, hdeleted]
        exact {
          conflict := by simp
          validation := by simp
          absent := fun _ ↦ by simp
          unknownTenant := fun _ error herror ↦ by rw [htenant] at herror; exact nomatch herror
          removes := fun record h ↦ nomatch h
          removesOnly := fun h ↦ absurd rfl h }
  · have hnone : req.path = none ∧ req.id = none := not_not.mp hkeys
    rw [getDirectoryQuota_keyless hnone, deleteDirectoryQuota_keyless hnone]
    exact {
      conflict := by simp
      validation := by simp
      absent := fun _ ↦ by simp
      unknownTenant := fun h ↦ absurd h hkeys
      removes := fun record h ↦ nomatch h
      removesOnly := fun h ↦ absurd rfl h }

/-! ## The order of the records -/

/-- The key which identifies records in this mode. -/
def naturalKeyOf (core : MockCore) (req : DirectoryQuotaKeys) : Option String :=
  if core.idAssignment = some "caller" then req.id else req.path

/-- No two different records agree with all keys of a request. -/
def Unambiguous (req : DirectoryQuotaKeys) (records : List DirectoryQuota) : Prop :=
  ∀ first ∈ records, ∀ second ∈ records, isFull req first = true → isFull req second = true →
    first = second

theorem isFull_iff {record : DirectoryQuota} : isFull req record = true ↔
    (req.path = none ∨ record.path = req.path) ∧ (req.id = none ∨ record.id = req.id) := by
  simp [isFull]

/-- Unique natural keys are enough for a request which names the natural key. -/
theorem unambiguous_of_natural {records : List DirectoryQuota}
    (hunique : (records.map core.naturalKey).Nodup) (hnamed : core.naturalKeyOf req ≠ none) :
    Unambiguous req records := by
  intro first hfirst second hsecond hfull hother
  apply List.inj_on_of_nodup_map hunique hfirst hsecond
  rw [isFull_iff] at hfull hother
  unfold naturalKeyOf at hnamed
  unfold naturalKey
  split_ifs at hnamed ⊢ with hmode
  · rw [hfull.2.resolve_left hnamed, hother.2.resolve_left hnamed]
  · rw [hfull.1.resolve_left hnamed, hother.1.resolve_left hnamed]

/-- Two lookups end alike; which record a conflict names is left out. -/
def SameAnswer : Except MockError DirectoryQuota → Except MockError DirectoryQuota → Prop
  | .ok first, .ok second => first = second
  | .error (.conflict _), .error (.conflict _) => True
  | .error first, .error second => first = second
  | _, _ => False

theorem find?_perm {records others : List DirectoryQuota} (hperm : records.Perm others)
    (h : Unambiguous req records) : records.find? (isFull req) = others.find? (isFull req) := by
  match hfound : records.find? (isFull req) with
  | none =>
    symm
    rw [List.find?_eq_none] at hfound ⊢
    exact fun record hrecord ↦ hfound record (hperm.mem_iff.mpr hrecord)
  | some record =>
    match hother : others.find? (isFull req) with
    | none =>
      rw [List.find?_eq_none] at hother
      exact absurd (List.find?_some hfound)
        (hother record (hperm.mem_iff.mp (List.mem_of_find?_eq_some hfound)))
    | some other =>
      rw [h record (List.mem_of_find?_eq_some hfound) other
        (hperm.mem_iff.mpr (List.mem_of_find?_eq_some hother)) (List.find?_some hfound)
          (List.find?_some hother)]

theorem partialMatch_isSome {records : List DirectoryQuota}
    (h : records.find? (isFull req) = none) :
    (partialMatch req records).isSome = records.any (isPartial req) := by
  have hwhole : records.takeWhile (fun record ↦ !isFull req record) = records := by
    rw [List.takeWhile_eq_self_iff]
    intro record hrecord
    have hnot := List.find?_eq_none.mp h record hrecord
    simpa using hnot
  rw [partialMatch, hwhole, Bool.eq_iff_iff, ← not_iff_not, Bool.not_eq_true, Option.isSome_eq_false_iff,
    Option.isNone_iff_eq_none, List.getLast?_eq_none_iff, List.filter_eq_nil_iff, List.any_eq_true]
  simp

/-- Two deletions end alike; which record a conflict names is left out. -/
def SameEnd : Except MockError Unit → Except MockError Unit → Prop
  | .ok _, .ok _ => True
  | .error (.conflict _), .error (.conflict _) => True
  | .error first, .error second => first = second
  | _, _ => False

/-- Two stores hold the same records of the volume of a request, in any order. -/
def SameRecords (core : MockCore) (req : DirectoryQuotaKeys) (store other : Store) : Prop :=
  ∀ resolved, core.resolveTenant req.tenantId = .ok resolved →
    (records store resolved req.volumeId).Perm (records other resolved req.volumeId)

/-- The request can mean one record only. -/
def MeansOne (core : MockCore) (store : Store) (req : DirectoryQuotaKeys) : Prop :=
  ∀ resolved, core.resolveTenant req.tenantId = .ok resolved →
    ((records store resolved req.volumeId).map core.naturalKey).Nodup ∧
        core.naturalKeyOf req ≠ none ∨
      Unambiguous req (records store resolved req.volumeId)

theorem MeansOne.unambiguous {resolved : String} (h : MeansOne core store req)
    (htenant : core.resolveTenant req.tenantId = .ok resolved) :
    Unambiguous req (records store resolved req.volumeId) := by
  match h resolved htenant with
  | .inl ⟨hunique, hnamed⟩ => exact unambiguous_of_natural hunique hnamed
  | .inr hunambiguous => exact hunambiguous

theorem partialMatch_perm {records others : List DirectoryQuota} (hperm : records.Perm others)
    (h : records.find? (isFull req) = none) (hother : others.find? (isFull req) = none) :
    (partialMatch req records).isSome = (partialMatch req others).isSome := by
  rw [partialMatch_isSome h, partialMatch_isSome hother]
  exact hperm.any_eq

theorem cons_eraseP_perm {records : List DirectoryQuota} {record : DirectoryQuota}
    (h : records.find? (isFull req) = some record) :
    (record :: records.eraseP (isFull req)).Perm records := by
  have ⟨hmatch, before, after, hsplit, hbefore⟩ := List.find?_eq_some_iff_append.mp h
  have herase : records.eraseP (isFull req) = before ++ after := by
    rw [hsplit, List.eraseP_append_right _ fun other hother ↦ by simpa using hbefore other hother,
      List.eraseP_cons_of_pos hmatch]
  rw [herase, hsplit]
  exact List.perm_middle.symm

theorem eraseP_perm {records others : List DirectoryQuota} (hperm : records.Perm others)
    (h : Unambiguous req records) :
    (records.eraseP (isFull req)).Perm (others.eraseP (isFull req)) := by
  match hfound : records.find? (isFull req) with
  | none =>
    have hother := hfound
    rw [find?_perm hperm h] at hother
    rw [List.eraseP_of_forall_not (List.find?_eq_none.mp hfound),
      List.eraseP_of_forall_not (List.find?_eq_none.mp hother)]
    exact hperm
  | some record =>
    have hother := hfound
    rw [find?_perm hperm h] at hother
    exact ((cons_eraseP_perm hfound).trans (hperm.trans (cons_eraseP_perm hother).symm)).cons_inv

/-- Whatever order the records are held in, the lookup answers and the deletion leaves the same. -/
structure OrderFree (core : MockCore) (req : DirectoryQuotaKeys)
    (got gotOther : Except MockError DirectoryQuota)
    (deleted deletedOther : Except MockError Unit × Store) : Prop where
  answer : SameAnswer got gotOther
  ending : SameEnd deleted.1 deletedOther.1
  left : SameRecords core req deleted.2 deletedOther.2

theorem orderFree {other : Store} (hsame : SameRecords core req store other)
    (hone : MeansOne core store req) :
    OrderFree core req (core.getDirectoryQuota store req) (core.getDirectoryQuota other req)
      (core.deleteDirectoryQuota store req) (core.deleteDirectoryQuota other req) := by
  by_cases hkeys : NamesKey req
  · match htenant : core.resolveTenant req.tenantId with
    | .error error =>
      have ⟨message, hmessage⟩ := resolveTenant_error htenant
      rw [getDirectoryQuota_unknown hkeys htenant, getDirectoryQuota_unknown hkeys htenant,
        deleteDirectoryQuota_unknown hkeys htenant, deleteDirectoryQuota_unknown hkeys htenant,
        hmessage]
      exact ⟨rfl, rfl, fun resolved hresolved ↦ hsame resolved hresolved⟩
    | .ok resolved =>
      have hperm := hsame resolved htenant
      have hunambiguous := hone.unambiguous htenant
      have hfind := find?_perm hperm hunambiguous
      have hleft : SameRecords core req (without store resolved req) (without other resolved req) := by
        intro tenant hresolved
        rw [htenant, Except.ok.injEq] at hresolved
        rw [← hresolved, records_without, records_without]
        exact eraseP_perm hperm hunambiguous
      match @ends core store req resolved hkeys htenant,
        @ends core other req resolved hkeys htenant with
      | .found record hfull hgot hdeleted, .found recordOther hfullOther hgotOther hdeletedOther =>
        rw [hgot, hgotOther, hdeleted, hdeletedOther]
        rw [hfull, hfullOther, Option.some.injEq] at hfind
        exact ⟨hfind, trivial, hleft⟩
      | .conflict _ _ _ _ hgot hdeleted, .conflict _ _ _ _ hgotOther hdeletedOther =>
        rw [hgot, hgotOther, hdeleted, hdeletedOther]
        exact ⟨trivial, trivial, hsame⟩
      | .absent _ _ hgot hdeleted, .absent _ _ hgotOther hdeletedOther =>
        rw [hgot, hgotOther, hdeleted, hdeletedOther]
        exact ⟨rfl, trivial, hsame⟩
      | .found _ hfull _ _, .conflict _ _ hnone _ _ _ | .found _ hfull _ _, .absent hnone _ _ _ =>
        exact nomatch hfull.symm.trans (hfind.trans hnone)
      | .conflict _ _ hnone _ _ _, .found _ hfull _ _ | .absent hnone _ _ _, .found _ hfull _ _ =>
        exact nomatch hfull.symm.trans (hfind.symm.trans hnone)
      | .conflict _ _ hnone hhalf _ _, .absent hnoneOther hno _ _ =>
        exact nomatch hhalf.symm.trans ((partialMatch_perm hperm hnone hnoneOther).trans hno)
      | .absent hnone hno _ _, .conflict _ _ hnoneOther hhalf _ _ =>
        exact nomatch hno.symm.trans ((partialMatch_perm hperm hnone hnoneOther).trans hhalf)
  · have hnone : req.path = none ∧ req.id = none := not_not.mp hkeys
    rw [getDirectoryQuota_keyless hnone, getDirectoryQuota_keyless hnone,
      deleteDirectoryQuota_keyless hnone, deleteDirectoryQuota_keyless hnone]
    exact ⟨rfl, rfl, hsame⟩

/-- A lookup and a deletion resolve the keys of a request alike, and where the request can mean one
record only, they do so whatever order the records are held in. -/
theorem get_delete_alike (core : MockCore) (store : Store) (req : DirectoryQuotaKeys) :
    ResolvedAlike core store req
        (providerGetDirectoryQuota id (core.listDirectoryQuotas store) req) (core.scanDelete store req) ∧
      ∀ other, SameRecords core req store other → MeansOne core store req →
        OrderFree core req
          (providerGetDirectoryQuota id (core.listDirectoryQuotas store) req)
          (providerGetDirectoryQuota id (core.listDirectoryQuotas other) req)
          (core.scanDelete store req) (core.scanDelete other req) := by
  simp only [providerGet_eq, scanDelete_eq]
  exact ⟨resolvedAlike core store req, fun other hsame hone ↦ orderFree hsame hone⟩

/-- A mock which names records by their path. -/
def pathMock : MockCore := { callerMock with qualifiers := .ofList [] }

/-- A quota of this path, under an id which its caller chose. -/
def quotaAt (path : String) : DirectoryQuota where
  tenantId := ""
  volumeId := "v"
  path := some path
  id := some "7"
  hard := some { bytes := some 4096 }

/-- The store after the quotas of these paths have been set. -/
def storeOf (paths : List String) : Store :=
  pathMock.run (paths.map fun path ↦ ("u", .setDirectoryQuota (quotaAt path)))

/-- A request which names the id only. -/
def byId : DirectoryQuotaKeys where
  volumeId := "v"
  id := some "7"

/-- Two paths with one id: the paths are unique, and the order decides which quota is found. -/
theorem order_decides :
    ((records (storeOf ["a", "b"]) "mock-tenant" "v").map pathMock.naturalKey).Nodup ∧
      (records (storeOf ["a", "b"]) "mock-tenant" "v").Perm
        (records (storeOf ["b", "a"]) "mock-tenant" "v") ∧
      ((providerGetDirectoryQuota id (pathMock.listDirectoryQuotas (storeOf ["a", "b"])) byId).toOption.map
        DirectoryQuota.path) = some (some "a") ∧
      ((providerGetDirectoryQuota id (pathMock.listDirectoryQuotas (storeOf ["b", "a"])) byId).toOption.map
        DirectoryQuota.path) = some (some "b") := by
  refine ⟨by decide, ?_, by decide, by decide⟩
  have hfirst : records (storeOf ["a", "b"]) "mock-tenant" "v" =
      [{ quotaAt "a" with tenantId := "mock-tenant" }, { quotaAt "b" with tenantId := "mock-tenant" }] := by
    rfl
  have hsecond : records (storeOf ["b", "a"]) "mock-tenant" "v" =
      [{ quotaAt "b" with tenantId := "mock-tenant" }, { quotaAt "a" with tenantId := "mock-tenant" }] := by
    rfl
  rw [hfirst, hsecond]
  exact List.Perm.swap ..

end MockCore

end IsvValidation.Storage
