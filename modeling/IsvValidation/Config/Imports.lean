import IsvValidation.Config.Merger

/-!
# Loading a configuration file with its imports

A file is loaded after the files it imports, which are merged in the order of its import list. The
names of the files on the current import chain are passed down, and each import gets its own copy,
so that the walk ends because no file can stand on the chain twice. The callback `on_load` sees each
file before it is read, and what it saw and what was read is recorded in order; a load without a
callback is one whose callback accepts every file.
-/

namespace IsvValidation.Config

open Library

/-! ## Files -/

/-- What `type(value).__name__` shows. -/
def Value.typeName : Value → String
  | .scalar .none => "NoneType"
  | .scalar (.bool _) => "bool"
  | .scalar (.int _) => "int"
  | .scalar (.float _) => "float"
  | .scalar (.nonFinite _) => "float"
  | .scalar (.str _) => "str"
  | .scalar (.date _) => "date"
  | .scalar (.timestamp _) => "datetime"
  | .scalar (.binary _) => "bytes"
  | .list _ => "list"
  | .dict _ => "dict"
  | .set _ => "set"

/-- A file system with finitely many files, as far as loading looks at it. Paths are texts; `files`
holds the resolved paths which exist, and `read` is `yaml.safe_load` of an opened file. -/
structure FileSystem where
  files : List String
  resolve : String → String
  parent : String → String
  parents : String → List String
  join : String → String → String
  expanduser : String → Except PyError String
  isAbsolute : String → Bool
  cwd : String
  read : String → Except PyError Value
  distinct : ∀ path value, read path = .ok value → value.DistinctKeys

namespace FileSystem

/-- `path.exists()`. -/
def «exists» (fs : FileSystem) (path : String) : Bool := fs.files.contains (fs.resolve path)

end FileSystem

/-- Why a load raises. -/
inductive LoadError where
  | circular (path : String)
  | notFound (path : String)
  | refused (path : String) (error : PyError)
  | raised (path : String) (error : PyError)
  | notMapping (path typeName : String)
  | importEntry (path typeName : String)

/-- The exception, with its text. -/
def LoadError.toPyError : LoadError → PyError
  | circular path => .valueError s!"Circular import detected: {path}"
  | notFound path => .osError s!"Configuration file not found: {path}"
  | refused _ error => error
  | raised _ error => error
  | notMapping path typeName =>
    .valueError s!"Configuration file must contain a YAML mapping, not {typeName}: {path}"
  | importEntry path typeName =>
    .valueError s!"Import entries must be strings or paths in {path}, got {typeName}"

/-- What a load does to a file: call `on_load` on it, and read it. -/
inductive LoadEvent where
  | checked (path : String)
  | read (path : String)
  deriving DecidableEq

section Load

variable (fs : FileSystem) (onLoad : String → Except PyError Unit)

/-- `_resolve_import_path`. -/
def resolveImportPath (path : String) : Value → Except LoadError String
  | .scalar (.str text) =>
    match fs.expanduser text with
    | .error error => .error (.raised path error)
    | .ok expanded =>
      let fileRelative := fs.resolve (fs.join (fs.parent path) expanded)
      if fs.exists fileRelative then .ok fileRelative
      else if fs.isAbsolute expanded then .ok (fs.resolve expanded)
      else
        let roots := fs.parents (fs.resolve path) ++ fs.cwd :: fs.parents fs.cwd
        match roots.find? fun root ↦ fs.exists (fs.join root expanded) with
        | some root => .ok (fs.resolve (fs.join root expanded))
        | none => .ok (fs.resolve (fs.join fs.cwd expanded))
  | other => .error (.importEntry path other.typeName)

/-- The entries of an `import` value; a falsy value imports nothing. -/
def importList : Option Value → List Value
  | none => []
  | some value =>
    if value.truthy then
      match value with
      | .list items => items
      | other => [other]
    else []

/-- The imports and the own content of a file, if it holds a mapping or nothing. -/
def fileContent : Value → Option (List Value × Items)
  | .scalar .none => some ([], [])
  | .dict items => some (importList (items.lookup (.str "import")), Value.pop "import" items)
  | _ => none

/-- A file imports what its key lists, or the one value which stands there. -/
theorem mem_imports_iff {items own : Items} {imports : List Value} (h : fileContent (.dict items) = some (imports, own))
    (imported : Value) : imported ∈ imports ↔ ∃ value, items.lookup (.str "import") = some value ∧
      value.truthy = true ∧ ((∃ listed, value = .list listed ∧ imported ∈ listed) ∨
        (∀ listed, value ≠ .list listed) ∧ imported = value) := by
  cases h
  cases hvalue : items.lookup (.str "import") with
  | none => simp [importList]
  | some value =>
    by_cases htruthy : value.truthy = true
    · cases value <;> simp [importList, htruthy]
    · simp [importList, htruthy]

/-- The number of files which are not on the import chain. -/
def remaining (visited : List String) : ℕ := (fs.files.filter fun file ↦ file ∉ visited).length

theorem remaining_cons_lt {visited : List String} {file : String} (hfile : file ∈ fs.files)
    (hnew : file ∉ visited) : remaining fs (file :: visited) < remaining fs visited := by
  have hsub : (fs.files.filter fun f ↦ f ∉ file :: visited) =
      (fs.files.filter fun f ↦ f ∉ visited).filter fun f ↦ f ≠ file := by
    rw [List.filter_filter]
    apply List.filter_congr
    intro f _
    simp [List.mem_cons, not_or]
  have hmem : file ∈ fs.files.filter fun f ↦ f ∉ visited :=
    List.mem_filter.mpr ⟨hfile, by simpa using hnew⟩
  rw [remaining, remaining, hsub]
  exact List.length_filter_lt_length_iff_exists.mpr ⟨file, hmem, by simp⟩

mutual

/-- `_load_yaml_with_imports`: the result and what was done on the way. -/
def load (path : String) (visited : List String) : Except LoadError Items × List LoadEvent :=
  if hvisited : fs.resolve path ∈ visited then (.error (.circular path), [])
  else if hexists : fs.resolve path ∈ fs.files then
    match onLoad path with
    | .error error => (.error (.refused path error), [.checked path])
    | .ok () =>
      match fs.read path with
      | .error error => (.error (.raised path error), [.checked path, .read path])
      | .ok value =>
        match fileContent value with
        | none => (.error (.notMapping path value.typeName), [.checked path, .read path])
        | some (imports, content) =>
          if imports.isEmpty then (.ok content, [.checked path, .read path])
          else
            have _ := remaining_cons_lt fs hexists hvisited
            match loadImports path (fs.resolve path :: visited) [] imports with
            | (.error error, events) => (.error error, .checked path :: .read path :: events)
            | (.ok base, events) =>
              (.ok (deepMerge base content), .checked path :: .read path :: events)
  else (.error (.notFound path), [])
termination_by (remaining fs visited, 0)

/-- The loop over the import list of a file. -/
def loadImports (path : String) (visited : List String) (base : Items) :
    List Value → Except LoadError Items × List LoadEvent
  | [] => (.ok base, [])
  | imp :: rest =>
    match resolveImportPath fs path imp with
    | .error error => (.error error, [])
    | .ok impPath =>
      match load impPath visited with
      | (.error error, events) => (.error error, events)
      | (.ok imported, events) =>
        let later := loadImports path visited (deepMerge base imported) rest
        (later.1, events ++ later.2)
termination_by imports => (remaining fs visited, imports.length + 1)

end

/-! ## One file -/

/-- A file which the walk reads: it is not on the chain, exists, is accepted and holds a mapping or
nothing, with these imports and this content of its own. -/
structure Opened (path : String) (visited : List String) (imports : List Value) (own : Items) :
    Prop where
  new : fs.resolve path ∉ visited
  found : fs.resolve path ∈ fs.files
  accepted : onLoad path = .ok ()
  content : ∃ value, fs.read path = .ok value ∧ fileContent value = some (imports, own)

/-- The errors which a file raises by itself. -/
inductive LocalError (path : String) (visited : List String) : LoadError → Prop
  | circular (hvisited : fs.resolve path ∈ visited) : LocalError path visited (.circular path)
  | notFound (hnew : fs.resolve path ∉ visited) (hmissing : fs.resolve path ∉ fs.files) :
    LocalError path visited (.notFound path)
  | refused {error : PyError} (hnew : fs.resolve path ∉ visited)
    (hfound : fs.resolve path ∈ fs.files) (hrefused : onLoad path = .error error) :
    LocalError path visited (.refused path error)
  | raised {error : PyError} (hnew : fs.resolve path ∉ visited)
    (hfound : fs.resolve path ∈ fs.files) (haccepted : onLoad path = .ok ())
    (hread : fs.read path = .error error) : LocalError path visited (.raised path error)
  | notMapping {value : Value} (hnew : fs.resolve path ∉ visited)
    (hfound : fs.resolve path ∈ fs.files) (haccepted : onLoad path = .ok ())
    (hread : fs.read path = .ok value) (hcontent : fileContent value = none) :
    LocalError path visited (.notMapping path value.typeName)

/-- An import which is resolved and loaded below a chain. -/
def Imported (path : String) (visited : List String) (imp : Value) (result : Items) : Prop :=
  ∃ impPath, resolveImportPath fs path imp = .ok impPath ∧
    (load fs onLoad impPath visited).1 = .ok result

/-- An import which raises. -/
def ImportRaises (path : String) (visited : List String) (imp : Value) (error : LoadError) : Prop :=
  resolveImportPath fs path imp = .error error ∨
    ∃ impPath, resolveImportPath fs path imp = .ok impPath ∧
      (load fs onLoad impPath visited).1 = .error error

variable {fs onLoad}

theorem loadImports_ok_iff {path : String} {visited : List String} {base result : Items}
    {imports : List Value} :
    (loadImports fs onLoad path visited base imports).1 = .ok result ↔
      ∃ results, List.Forall₂ (Imported fs onLoad path visited) imports results ∧
        result = results.foldl deepMerge base := by
  induction imports generalizing base with
  | nil =>
    rw [loadImports]
    constructor
    · intro h
      exact ⟨[], .nil, (Except.ok.inj h).symm⟩
    · rintro ⟨results, hresults, rfl⟩
      cases hresults
      rfl
  | cons imp rest ih =>
    rw [loadImports]
    constructor
    · intro h
      split at h
      · cases h
      · rename_i impPath hpath
        split at h
        · cases h
        · rename_i imported events hload
          obtain ⟨results, hresults, hfold⟩ := ih.mp h
          exact ⟨imported :: results, .cons ⟨impPath, hpath, by rw [hload]⟩ hresults, hfold⟩
    · rintro ⟨results, hresults, rfl⟩
      cases hresults with
      | cons himp hrest =>
        obtain ⟨impPath, hpath, hload⟩ := himp
        rename_i imported others
        have hpair : load fs onLoad impPath visited =
            (.ok imported, (load fs onLoad impPath visited).2) := Prod.ext hload rfl
        rw [hpath]
        simp only
        rw [hpair]
        exact ih.mpr ⟨others, hrest, rfl⟩

theorem loadImports_error_iff {path : String} {visited : List String} {base : Items}
    {imports : List Value} {error : LoadError} :
    (loadImports fs onLoad path visited base imports).1 = .error error ↔
      ∃ before imp after, imports = before ++ imp :: after ∧
        (∀ earlier ∈ before, ∃ result, Imported fs onLoad path visited earlier result) ∧
          ImportRaises fs onLoad path visited imp error := by
  induction imports generalizing base with
  | nil =>
    rw [loadImports]
    constructor
    · intro h
      cases h
    · rintro ⟨before, imp, after, h, _⟩
      cases before <;> cases h
  | cons first rest ih =>
    rw [loadImports]
    constructor
    · intro h
      split at h
      · rename_i raised hpath
        cases h
        exact ⟨[], first, rest, rfl, by simp, Or.inl hpath⟩
      · rename_i impPath hpath
        split at h
        · rename_i raised events hload
          cases h
          exact ⟨[], first, rest, rfl, by simp, Or.inr ⟨impPath, hpath, by rw [hload]⟩⟩
        · rename_i imported events hload
          obtain ⟨before, imp, after, rfl, hbefore, hraises⟩ := ih.mp h
          refine ⟨first :: before, imp, after, rfl, ?_, hraises⟩
          intro earlier hearlier
          rcases List.mem_cons.mp hearlier with rfl | hmem
          · exact ⟨imported, impPath, hpath, by rw [hload]⟩
          · exact hbefore earlier hmem
    · rintro ⟨before, imp, after, heq, hbefore, hraises⟩
      cases before with
      | nil =>
        rw [List.nil_append, List.cons.injEq] at heq
        obtain ⟨rfl, rfl⟩ := heq
        rcases hraises with hpath | ⟨impPath, hpath, hload⟩
        · rw [hpath]
        · have hpair : load fs onLoad impPath visited =
              (.error error, (load fs onLoad impPath visited).2) := Prod.ext hload rfl
          rw [hpath]
          simp only
          rw [hpair]
      | cons earlier before =>
        rw [List.cons_append, List.cons.injEq] at heq
        obtain ⟨rfl, rfl⟩ := heq
        obtain ⟨imported, impPath, hpath, hload⟩ := hbefore _ (List.mem_cons_self ..)
        have hpair : load fs onLoad impPath visited =
            (.ok imported, (load fs onLoad impPath visited).2) := Prod.ext hload rfl
        rw [hpath]
        simp only
        rw [hpair]
        exact ih.mpr ⟨before, imp, after, rfl,
          fun other hother ↦ hbefore other (List.mem_cons_of_mem _ hother), hraises⟩

/-- A file is opened or raises by itself. -/
theorem opened_or_localError (path : String) (visited : List String) :
    (∃ imports own, Opened fs onLoad path visited imports own) ∨
      ∃ error, LocalError fs onLoad path visited error := by
  by_cases hvisited : fs.resolve path ∈ visited
  · exact Or.inr ⟨_, .circular hvisited⟩
  · by_cases hfound : fs.resolve path ∈ fs.files
    · cases haccepted : onLoad path with
      | error error => exact Or.inr ⟨_, .refused hvisited hfound haccepted⟩
      | ok _ =>
        cases hread : fs.read path with
        | error error => exact Or.inr ⟨_, .raised hvisited hfound haccepted hread⟩
        | ok value =>
          cases hcontent : fileContent value with
          | none => exact Or.inr ⟨_, .notMapping hvisited hfound haccepted hread hcontent⟩
          | some content =>
            exact Or.inl ⟨content.1, content.2, hvisited, hfound, haccepted, value, hread, hcontent⟩
    · exact Or.inr ⟨_, .notFound hvisited hfound⟩

/-- The load of an opened file is the load of its imports, with its own content on top. -/
theorem load_of_opened {path : String} {visited : List String} {imports : List Value} {own : Items}
    (h : Opened fs onLoad path visited imports own) :
    load fs onLoad path visited =
      if imports.isEmpty then (.ok own, [.checked path, .read path])
      else
        ((loadImports fs onLoad path (fs.resolve path :: visited) [] imports).1.map
            (deepMerge · own),
          .checked path :: .read path ::
            (loadImports fs onLoad path (fs.resolve path :: visited) [] imports).2) := by
  obtain ⟨value, hread, hcontent⟩ := h.content
  rw [load, dif_neg h.new, dif_pos h.found, h.accepted]
  simp only [hread, hcontent]
  split
  · rfl
  · cases hload : loadImports fs onLoad path (fs.resolve path :: visited) [] imports with
    | mk result events => cases result <;> rfl

theorem load_of_localError {path : String} {visited : List String} {error : LoadError}
    (h : LocalError fs onLoad path visited error) :
    (load fs onLoad path visited).1 = .error error := by
  cases h with
  | circular hvisited => rw [load, dif_pos hvisited]
  | notFound hnew hmissing => rw [load, dif_neg hnew, dif_neg hmissing]
  | refused hnew hfound hrefused => rw [load, dif_neg hnew, dif_pos hfound, hrefused]
  | raised hnew hfound haccepted hread =>
    rw [load, dif_neg hnew, dif_pos hfound, haccepted]
    simp only [hread]
  | notMapping hnew hfound haccepted hread hcontent =>
    rw [load, dif_neg hnew, dif_pos hfound, haccepted]
    simp only [hread, hcontent]

theorem Opened.distinct {path : String} {visited : List String} {imports : List Value} {own : Items}
    (h : Opened fs onLoad path visited imports own) : (Value.dict own).DistinctKeys := by
  obtain ⟨value, hread, hcontent⟩ := h.content
  have hvalue := fs.distinct path value hread
  unfold fileContent at hcontent
  split at hcontent
  · cases hcontent
    exact Mapping.empty.distinct
  · rename_i items
    cases hcontent
    refine ⟨hvalue.nodup.sublist (List.Sublist.map _ List.filter_sublist), ?_⟩
    rw [Value.distinctItems_iff]
    intro entry hentry
    exact Value.distinctItems_iff.mp hvalue.2 entry (List.mem_filter.mp hentry).1
  · cases hcontent

/-- A load succeeds exactly where its file is opened and all its imports are loaded, and the result
is the fold of their results in list order, the own content merged last. -/
theorem load_ok_iff {path : String} {visited : List String} {result : Items} :
    (load fs onLoad path visited).1 = .ok result ↔
      ∃ imports own results, Opened fs onLoad path visited imports own ∧
        List.Forall₂ (Imported fs onLoad path (fs.resolve path :: visited)) imports results ∧
          result = deepMerge (results.foldl deepMerge []) own := by
  have hspec {imports : List Value} {own : Items} (h : Opened fs onLoad path visited imports own) :
      (load fs onLoad path visited).1 = .ok result ↔
        ∃ results,
          List.Forall₂ (Imported fs onLoad path (fs.resolve path :: visited)) imports results ∧
            result = deepMerge (results.foldl deepMerge []) own := by
    rw [load_of_opened h]
    cases imports with
    | nil =>
      have hempty : deepMerge [] own = own :=
        congrArg Mapping.items (Mapping.empty_merge ⟨own, h.distinct⟩)
      constructor
      · intro hresult
        exact ⟨[], .nil, (Except.ok.inj hresult).symm.trans hempty.symm⟩
      · rintro ⟨results, hresults, rfl⟩
        cases hresults
        exact congrArg Except.ok hempty.symm
    | cons imp rest =>
      rw [if_neg (by simp)]
      constructor
      · intro hresult
        cases hload : (loadImports fs onLoad path (fs.resolve path :: visited) [] (imp :: rest)).1 with
        | error error =>
          simp only [hload] at hresult
          cases hresult
        | ok base =>
          simp only [hload] at hresult
          obtain ⟨results, hresults, rfl⟩ := loadImports_ok_iff.mp hload
          exact ⟨results, hresults, (Except.ok.inj hresult).symm⟩
      · rintro ⟨results, hresults, rfl⟩
        simp only [loadImports_ok_iff.mpr ⟨results, hresults, rfl⟩]
        rfl
  constructor
  · intro hresult
    rcases opened_or_localError path visited with ⟨imports, own, hopened⟩ | ⟨error, hlocal⟩
    · obtain ⟨results, hresults⟩ := (hspec hopened).mp hresult
      exact ⟨imports, own, results, hopened, hresults⟩
    · rw [load_of_localError hlocal] at hresult
      cases hresult
  · rintro ⟨imports, own, results, hopened, hresults⟩
    exact (hspec hopened).mpr ⟨results, hresults⟩

/-- A load raises what its file raises, or what the first import raises which is not loaded. -/
theorem load_error_iff {path : String} {visited : List String} {error : LoadError} :
    (load fs onLoad path visited).1 = .error error ↔
      LocalError fs onLoad path visited error ∨
      ∃ before imp after own, Opened fs onLoad path visited (before ++ imp :: after) own ∧
        (∀ earlier ∈ before,
          ∃ result, Imported fs onLoad path (fs.resolve path :: visited) earlier result) ∧
        ImportRaises fs onLoad path (fs.resolve path :: visited) imp error := by
  have hspec {imports : List Value} {own : Items} (h : Opened fs onLoad path visited imports own) :
      (load fs onLoad path visited).1 = .error error ↔
        (loadImports fs onLoad path (fs.resolve path :: visited) [] imports).1 = .error error := by
    rw [load_of_opened h]
    cases imports with
    | nil =>
      rw [loadImports]
      constructor <;> intro hraised <;> cases hraised
    | cons imp rest =>
      rw [if_neg (by simp)]
      cases (loadImports fs onLoad path (fs.resolve path :: visited) [] (imp :: rest)).1 with
      | error raised => exact Iff.rfl
      | ok base => constructor <;> intro hraised <;> cases hraised
  constructor
  · intro hraised
    rcases opened_or_localError path visited with ⟨imports, own, hopened⟩ | ⟨raised, hlocal⟩
    · obtain ⟨before, imp, after, rfl, hbefore, himp⟩ :=
        loadImports_error_iff.mp ((hspec hopened).mp hraised)
      exact Or.inr ⟨before, imp, after, own, hopened, hbefore, himp⟩
    · rw [load_of_localError hlocal, Except.error.injEq] at hraised
      subst hraised
      exact Or.inl hlocal
  · rintro (hlocal | ⟨before, imp, after, own, hopened, hbefore, himp⟩)
    · exact load_of_localError hlocal
    · exact (hspec hopened).mpr (loadImports_error_iff.mpr ⟨before, imp, after, rfl, hbefore, himp⟩)

variable (fs) in
/-- What holds of a file once it holds of everything below it holds of every load. -/
theorem load_induction {P : String → List String → Prop}
    (h : ∀ path visited, (fs.resolve path ∉ visited → fs.resolve path ∈ fs.files →
      ∀ impPath, P impPath (fs.resolve path :: visited)) → P path visited)
    (path : String) (visited : List String) : P path visited := by
  induction hn : remaining fs visited using Nat.strong_induction_on generalizing path visited with
  | _ n ih =>
    apply h
    intro hnew hfound impPath
    exact ih _ (hn ▸ remaining_cons_lt fs hfound hnew) impPath _ rfl

/-! ## The walk -/

variable (fs onLoad)

/-- A file imports another one. -/
def ImportsFile (path impPath : String) : Prop :=
  ∃ value imports own, fs.read path = .ok value ∧ fileContent value = some (imports, own) ∧
    ∃ imp ∈ imports, resolveImportPath fs path imp = .ok impPath

/-- The import chains of a root: a file with the names of its ancestors, the nearest first. -/
inductive ImportChain (root : String) : List String → String → Prop
  | root : ImportChain root [] root
  | step {chain : List String} {path impPath : String} (hchain : ImportChain root chain path)
    (himport : ImportsFile fs path impPath) : ImportChain root (fs.resolve path :: chain) impPath

/-- The files which the depth-first walk reaches, with their ancestors: it goes on to an import once
all earlier ones of the same list are loaded. -/
inductive Reached (root : String) : List String → String → Prop
  | root : Reached root [] root
  | step {chain : List String} {path impPath : String} {before after : List Value} {imp : Value}
    {own : Items} (hreached : Reached root chain path)
    (hopened : Opened fs onLoad path chain (before ++ imp :: after) own)
    (hbefore : ∀ earlier ∈ before,
      ∃ result, Imported fs onLoad path (fs.resolve path :: chain) earlier result)
    (hpath : resolveImportPath fs path imp = .ok impPath) :
    Reached root (fs.resolve path :: chain) impPath

/-- Every file below the root exists, is accepted, and holds a mapping or nothing, with import
entries which can be resolved. -/
def Readable (root : String) : Prop :=
  ∀ chain path, ImportChain fs root chain path →
    fs.resolve path ∈ fs.files ∧ onLoad path = .ok () ∧
      ∃ value imports own, fs.read path = .ok value ∧ fileContent value = some (imports, own) ∧
        ∀ imp ∈ imports, ∃ impPath, resolveImportPath fs path imp = .ok impPath

variable {fs onLoad}

theorem Opened.importsFile {path impPath : String} {visited : List String} {imports : List Value}
    {own : Items} {imp : Value} (h : Opened fs onLoad path visited imports own)
    (himp : imp ∈ imports) (hpath : resolveImportPath fs path imp = .ok impPath) :
    ImportsFile fs path impPath := by
  obtain ⟨value, hread, hcontent⟩ := h.content
  exact ⟨value, imports, own, hread, hcontent, imp, himp, hpath⟩

theorem Reached.importChain {root path : String} {chain : List String}
    (h : Reached fs onLoad root chain path) : ImportChain fs root chain path := by
  induction h with
  | root => exact .root
  | step _ hopened _ hpath ih =>
    exact .step ih (hopened.importsFile (List.mem_append_right _ (List.mem_cons_self ..)) hpath)

/-- An error at a file which the walk reaches is the error of the whole load. -/
theorem Reached.raises {root path : String} {chain : List String} {error : LoadError}
    (h : Reached fs onLoad root chain path) (herror : (load fs onLoad path chain).1 = .error error) :
    (load fs onLoad root []).1 = .error error := by
  induction h with
  | root => exact herror
  | step _ hopened hbefore hpath ih =>
    apply ih
    exact load_error_iff.mpr
      (Or.inr ⟨_, _, _, _, hopened, hbefore, Or.inr ⟨_, hpath, herror⟩⟩)

/-- An error comes from a file which the walk reaches: the file raises by itself, or an entry of the
list of its imports cannot be resolved. -/
theorem Reached.exists_source {root path : String} {chain : List String} {error : LoadError}
    (h : Reached fs onLoad root chain path) (herror : (load fs onLoad path chain).1 = .error error) :
    ∃ chain' source, Reached fs onLoad root chain' source ∧
      (LocalError fs onLoad source chain' error ∨ ∃ imports own, ∃ imp ∈ imports,
        Opened fs onLoad source chain' imports own ∧
          resolveImportPath fs source imp = .error error) := by
  induction path, chain using load_induction fs with
  | h path chain ih =>
    rcases load_error_iff.mp herror with
      hlocal | ⟨before, imp, after, own, hopened, hbefore, himp⟩
    · exact ⟨chain, path, h, Or.inl hlocal⟩
    · rcases himp with hpath | ⟨impPath, hpath, hload⟩
      · exact ⟨chain, path, h, Or.inr ⟨_, own, imp,
          List.mem_append_right _ (List.mem_cons_self ..), hopened, hpath⟩⟩
      · exact ih hopened.new hopened.found impPath (h.step hopened hbefore hpath) hload

/-- Resolving an import entry never reports a circular import. -/
theorem resolveImportPath_ne_circular (path : String) (imp : Value) (other : String) :
    resolveImportPath fs path imp ≠ .error (.circular other) := by
  intro h
  unfold resolveImportPath at h
  split at h
  · split at h
    · cases h
    · simp only at h
      split_ifs at h
      split at h <;> cases h
  · cases h

/-- The circular import error is raised exactly where the walk reaches a file which is its own
ancestor. -/
theorem load_circular_iff {root path : String} :
    (load fs onLoad root []).1 = .error (.circular path) ↔
      ∃ chain, Reached fs onLoad root chain path ∧ fs.resolve path ∈ chain := by
  constructor
  · intro herror
    obtain ⟨chain, source, hreached, hlocal | ⟨_, _, imp, _, _, hpath⟩⟩ :=
      Reached.exists_source .root herror
    · cases hlocal with
      | circular hvisited => exact ⟨chain, hreached, hvisited⟩
    · exact absurd hpath (resolveImportPath_ne_circular source imp path)
  · rintro ⟨chain, hreached, hvisited⟩
    exact hreached.raises (load_of_localError (.circular hvisited))

/-- A successful load has loaded every file below its root, along every import chain. -/
theorem ImportChain.exists_load {root path : String} {chain : List String} {result : Items}
    (h : ImportChain fs root chain path) (hload : (load fs onLoad root []).1 = .ok result) :
    ∃ loaded, (load fs onLoad path chain).1 = .ok loaded := by
  induction h with
  | root => exact ⟨result, hload⟩
  | @step chain path impPath _ himport ih =>
    obtain ⟨loaded, hloaded⟩ := ih
    obtain ⟨imports, own, results, hopened, hresults, _⟩ := load_ok_iff.mp hloaded
    obtain ⟨value, imports', own', hread, hcontent, imp, himp, hpath⟩ := himport
    obtain ⟨value', hread', hcontent'⟩ := hopened.content
    rw [hread, Except.ok.injEq] at hread'
    subst hread'
    rw [hcontent, Option.some.injEq, Prod.mk.injEq] at hcontent'
    rw [hcontent'.1] at himp
    obtain ⟨i, hi, hget⟩ := List.getElem_of_mem himp
    have himported := hresults.get hi (hresults.length_eq ▸ hi)
    rw [List.get_eq_getElem, hget] at himported
    obtain ⟨impPath', hpath', hload'⟩ := himported
    rw [hpath, Except.ok.injEq] at hpath'
    subst hpath'
    exact ⟨_, hload'⟩

theorem ImportChain.opened {root path : String} {chain : List String} {result : Items}
    (h : ImportChain fs root chain path) (hload : (load fs onLoad root []).1 = .ok result) :
    ∃ imports own, Opened fs onLoad path chain imports own := by
  obtain ⟨loaded, hloaded⟩ := h.exists_load hload
  obtain ⟨imports, own, _, hopened, _⟩ := load_ok_iff.mp hloaded
  exact ⟨imports, own, hopened⟩

/-- Among readable files a load succeeds or reports a circular import. -/
theorem Readable.load_cases {root : String} (h : Readable fs onLoad root) :
    (∃ result, (load fs onLoad root []).1 = .ok result) ∨
      ∃ path, (load fs onLoad root []).1 = .error (.circular path) := by
  cases hload : (load fs onLoad root []).1 with
  | ok result => exact Or.inl ⟨result, rfl⟩
  | error error =>
    right
    obtain ⟨chain, source, hreached, hsource⟩ := Reached.exists_source .root hload
    obtain ⟨hfound, haccepted, value, imports, own, hread, hcontent, hresolved⟩ :=
      h chain source hreached.importChain
    rcases hsource with hlocal | ⟨imports', own', imp, himp, hopened, hpath⟩
    · cases hlocal with
      | circular hvisited => exact ⟨source, rfl⟩
      | notFound _ hmissing => exact absurd hfound hmissing
      | refused _ _ hrefused => rw [haccepted] at hrefused; cases hrefused
      | raised _ _ _ hraised => rw [hread] at hraised; cases hraised
      | notMapping _ _ _ hread' hnone =>
        rw [hread, Except.ok.injEq] at hread'
        subst hread'
        rw [hcontent] at hnone
        cases hnone
    · obtain ⟨value', hread', hcontent'⟩ := hopened.content
      rw [hread, Except.ok.injEq] at hread'
      subst hread'
      rw [hcontent, Option.some.injEq, Prod.mk.injEq] at hcontent'
      rw [← hcontent'.1] at himp
      obtain ⟨impPath, hok⟩ := hresolved imp himp
      rw [hok] at hpath
      cases hpath

/-! ## The order of checking and reading -/

variable (onLoad) in
/-- Files are accepted and then read, one after the other; at most the last one is refused, and then
the load raises. -/
def CheckedFirst (run : Except LoadError Items × List LoadEvent) : Prop :=
  ∃ (accepted : List String) (last : List LoadEvent),
    run.2 = (accepted.flatMap fun path ↦ [.checked path, .read path]) ++ last ∧
    (∀ path ∈ accepted, onLoad path = .ok ()) ∧
    (last = [] ∨ ∃ path error, last = [.checked path] ∧ onLoad path = .error error ∧
      run.1 = .error (.refused path error))

theorem CheckedFirst.of_accepted {result : Except LoadError Items} {accepted : List String}
    (h : ∀ path ∈ accepted, onLoad path = .ok ()) :
    CheckedFirst onLoad
      (result, accepted.flatMap fun path ↦ [LoadEvent.checked path, .read path]) :=
  ⟨accepted, [], (List.append_nil _).symm, h, Or.inl rfl⟩

/-- What came before a run was accepted and read. -/
theorem CheckedFirst.after {run : Except LoadError Items × List LoadEvent}
    (h : CheckedFirst onLoad run) {earlier : List String}
    (hearlier : ∀ path ∈ earlier, onLoad path = .ok ()) {result : Except LoadError Items}
    (hresult : ∀ error, run.1 = .error error → result = .error error) :
    CheckedFirst onLoad
      (result, (earlier.flatMap fun path ↦ [LoadEvent.checked path, .read path]) ++ run.2) := by
  obtain ⟨accepted, last, hevents, haccepted, hlast⟩ := h
  refine ⟨earlier ++ accepted, last, ?_, ?_, ?_⟩
  · rw [hevents, List.flatMap_append, List.append_assoc]
  · intro path hpath
    rcases List.mem_append.mp hpath with hmem | hmem
    · exact hearlier path hmem
    · exact haccepted path hmem
  · rcases hlast with hnil | ⟨path, error, hlast, hrefused, hrun⟩
    · exact Or.inl hnil
    · exact Or.inr ⟨path, error, hlast, hrefused, hresult _ hrun⟩

theorem checkedFirst_loadImports {path : String} {visited : List String} {base : Items}
    {imports : List Value}
    (h : ∀ impPath, CheckedFirst onLoad (load fs onLoad impPath visited)) :
    CheckedFirst onLoad (loadImports fs onLoad path visited base imports) := by
  induction imports generalizing base with
  | nil =>
    rw [loadImports]
    exact ⟨[], [], rfl, by simp, Or.inl rfl⟩
  | cons imp rest ih =>
    rw [loadImports]
    split
    · exact ⟨[], [], rfl, by simp, Or.inl rfl⟩
    · rename_i impPath hpath
      have hload := h impPath
      split
      · rename_i error events heq
        rw [heq] at hload
        exact hload
      · rename_i imported events heq
        rw [heq] at hload
        obtain ⟨accepted, last, hevents, haccepted, hnil | ⟨_, _, _, _, hraised⟩⟩ := hload
        · subst hnil
          simp only [List.append_nil] at hevents
          simp only [hevents]
          exact ih.after haccepted fun _ hraised ↦ hraised
        · cases hraised

theorem checkedFirst_load (path : String) (visited : List String) :
    CheckedFirst onLoad (load fs onLoad path visited) := by
  induction path, visited using load_induction fs with
  | h path visited ih =>
    have hcases : (∃ imports own, Opened fs onLoad path visited imports own) ∨
        ∃ error, LocalError fs onLoad path visited error := opened_or_localError path visited
    rcases hcases with ⟨imports, own, hopened⟩ | ⟨error, hlocal⟩
    · have hpath : ∀ p ∈ [path], onLoad p = .ok () := by
        intro p hp
        rw [List.mem_singleton.mp hp]
        exact hopened.accepted
      rw [load_of_opened hopened]
      split
      · exact CheckedFirst.of_accepted hpath
      · have himports : CheckedFirst onLoad
            (loadImports fs onLoad path (fs.resolve path :: visited) [] imports) :=
          checkedFirst_loadImports (ih hopened.new hopened.found)
        apply himports.after hpath
        intro error herror
        rw [herror]
        rfl
    · cases hlocal with
      | circular hvisited =>
        rw [load, dif_pos hvisited]
        exact ⟨[], [], rfl, by simp, Or.inl rfl⟩
      | notFound hnew hmissing =>
        rw [load, dif_neg hnew, dif_neg hmissing]
        exact ⟨[], [], rfl, by simp, Or.inl rfl⟩
      | @refused refusal hnew hfound hrefused =>
        rw [load, dif_neg hnew, dif_pos hfound, hrefused]
        exact ⟨[], [.checked path], rfl, by simp, Or.inr ⟨path, refusal, rfl, hrefused, rfl⟩⟩
      | raised hnew hfound haccepted hread =>
        rw [load, dif_neg hnew, dif_pos hfound, haccepted]
        simp only [hread]
        exact ⟨[path], [], rfl, by simpa using haccepted, Or.inl rfl⟩
      | notMapping hnew hfound haccepted hread hcontent =>
        rw [load, dif_neg hnew, dif_pos hfound, haccepted]
        simp only [hread, hcontent]
        exact ⟨[path], [], rfl, by simpa using haccepted, Or.inl rfl⟩

/-! ## Loading as a fold of the import graph -/

variable (fs onLoad) in
/-- Loading a root is a fold of its import graph. The circular import error is raised where the walk
reaches a file which is its own ancestor, and so only for a chain of imports which returns to a file,
never for a base shared by two branches; no such chain is below a loaded root, and among readable
files nothing else stops a load. Every result is the fold of the results of the imports in list
order with the file's own content merged last. Each file is accepted before it is read, and nothing
is returned when a file below the root is refused. -/
structure ImportLoading (root : String) : Prop where
  circular : ∀ path, (load fs onLoad root []).1 = .error (.circular path) ↔
    ∃ chain, Reached fs onLoad root chain path ∧ fs.resolve path ∈ chain
  returning : ∀ path, (load fs onLoad root []).1 = .error (.circular path) →
    ∃ chain, ImportChain fs root chain path ∧ fs.resolve path ∈ chain
  acyclic : ∀ result, (load fs onLoad root []).1 = .ok result →
    ∀ chain path, ImportChain fs root chain path → fs.resolve path ∉ chain
  complete : Readable fs onLoad root →
    (∃ result, (load fs onLoad root []).1 = .ok result) ∨
      ∃ path, (load fs onLoad root []).1 = .error (.circular path)
  folded : ∀ path visited result, (load fs onLoad path visited).1 = .ok result ↔
    ∃ imports own results, Opened fs onLoad path visited imports own ∧
      List.Forall₂ (Imported fs onLoad path (fs.resolve path :: visited)) imports results ∧
        result = deepMerge (results.foldl deepMerge []) own
  checked : CheckedFirst onLoad (load fs onLoad root [])
  refused : ∀ chain path error, ImportChain fs root chain path → onLoad path = .error error →
    ∀ result, (load fs onLoad root []).1 ≠ .ok result

theorem load_imports_folded (fs : FileSystem) (onLoad : String → Except PyError Unit)
    (root : String) : ImportLoading fs onLoad root where
  circular := fun _ ↦ load_circular_iff
  returning := by
    intro path herror
    obtain ⟨chain, hreached, hvisited⟩ := load_circular_iff.mp herror
    exact ⟨chain, hreached.importChain, hvisited⟩
  acyclic := by
    intro result hload chain path hchain
    obtain ⟨_, _, hopened⟩ := hchain.opened hload
    exact hopened.new
  complete := Readable.load_cases
  folded := fun _ _ _ ↦ load_ok_iff
  checked := checkedFirst_load root []
  refused := by
    intro chain path error hchain hrefused result hload
    obtain ⟨_, _, hopened⟩ := hchain.opened hload
    rw [hopened.accepted] at hrefused
    cases hrefused

/-! ## Several files -/

variable (fs onLoad) in
/-- The loop of `merge_yaml_files` over the files; an empty file is passed over. -/
def mergeYamlFiles (result : Items) : List String → Except LoadError Items
  | [] => .ok result
  | path :: rest =>
    match (load fs onLoad path []).1 with
    | .error error => .error error
    | .ok content => mergeYamlFiles (if content.isEmpty then result else deepMerge result content) rest

end Load

end IsvValidation.Config
