import IsvValidation.Config.EnvCatalog
import IsvValidation.Host.Runtime
import IsvValidation.Library.Sequence

/-!
# The persisted user configuration

Values are kept in two files, of which one holds the secrets. A file is read through the translation
between variables and sections and replaced as a whole; `update` and `remove` change one file after
the other. What is stored is the content as YAML reads it, so that the bytes of a file which is not
rewritten are out of question, and a dumped mapping is read back as it was.
-/

namespace IsvValidation.Config

open Host Library

/-! ## Files -/

/-- The two user files. -/
inductive Slot where
  | config
  | secrets
  deriving DecidableEq

/-- Whether a variable belongs into the file. -/
def Slot.holds : Slot → String → Bool
  | config, name => !isSecretEnvVar name
  | secrets, name => isSecretEnvVar name

/-- Environment variables with their values. -/
abbrev Env := OrderedMap String String

/-- What stands at the path of a user file. A link may point to a file or to nothing. -/
inductive FileEntry (Bytes : Type) where
  | absent
  | regular (bytes : Bytes)
  | symlink (target : Option Bytes)

/-- The bytes which reading the path finds, if it exists. -/
def FileEntry.content? {Bytes : Type} : FileEntry Bytes → Option Bytes
  | absent => none
  | regular bytes => some bytes
  | symlink target => target

abbrev UserFiles (Bytes : Type) := Slot → FileEntry Bytes

/-- The sections of a file, in order, as the mapping which is dumped. -/
def sectionData (sections : List (String × List (String × String))) : Items :=
  (.str "version", .scalar (.int 1)) :: sections.map fun (name, body) ↦
    (.str name, .dict (body.map fun (key, value) ↦ (.str key, .str value)))

/-- `yaml.safe_load` and `yaml.safe_dump` behind the file header, on the bytes of a file. -/
structure YamlFormat (Bytes : Type) where
  load : Bytes → Except String Value
  dump : Items → Bytes
  load_dump : ∀ sections, load (dump (sectionData sections)) = .ok (.dict (sectionData sections))

/-- The paths of the two files, whether they resolve to the same file, and the text of values. -/
structure UserSetup (Bytes : Type) where
  yaml : YamlFormat Bytes
  path : Slot → String
  resolved : Slot → String
  str : Value → String

/-- What the operating system refuses during one call: reading a file, preparing its directory,
replacing it, or removing it. -/
structure OsFaults where
  read : Slot → Option PyError := fun _ ↦ none
  prepare : Slot → Option PyError := fun _ ↦ none
  replace : Slot → Option PyError := fun _ ↦ none
  unlink : Slot → Option PyError := fun _ ↦ none

section Files

variable {Bytes : Type} (setup : UserSetup Bytes)

/-! ## Reading -/

/-- `_check_schema_version`. -/
def checkSchemaVersion (path : String) : Option Value → Except PyError Unit
  | none => .ok ()
  | some (.scalar .none) => .ok ()
  | some (.scalar (.int version)) =>
    if version < 1 then .error (.valueError s!"{path}: invalid schema version {version}")
    else if version > 1 then
      .error (.valueError (s!"{path}: schema version {version} was written by a newer isvctl " ++
        "(this build supports up to 1); upgrade isvctl"))
    else .ok ()
  | some _ => .error (.valueError s!"{path}: 'version' must be an integer")

/-- One entry of a section, as the variable and its value. -/
def readKey (slot : Slot) (sectionName : String) (entry : Scalar × Value) :
    Except PyError (String × String) :=
  let path := setup.path slot
  let key := (Value.scalar entry.1).str?.getD (setup.str (.scalar entry.1))
  match (Value.scalar entry.1).str?.bind (sectionKeyToEnv sectionName) with
  | none => .error (.valueError s!"{path}: unknown key '{sectionName}.{key}'")
  | some name =>
    match checkPersistable name s!"{path}: '{sectionName}.{key}' maps to " with
    | .error error => .error error
    | .ok () =>
      match entry.2.str? with
      | none =>
        .error (.valueError
          s!"{path}: '{sectionName}.{key}' value must be a string (quote it in YAML)")
      | some value =>
        if slot = .secrets ∧ isSecretEnvVar name = false then
          .error (.valueError
            s!"{path}: '{sectionName}.{key}' is not a secret; it belongs in config.yml")
        else if slot = .config ∧ isSecretEnvVar name = true then
          .error (.valueError
            s!"{path}: '{sectionName}.{key}' is a secret; it belongs in secrets.yml")
        else .ok (name, value)

/-- One section of a file. -/
def readSection (slot : Slot) (entry : Scalar × Value) : Except PyError (List (String × String)) :=
  let path := setup.path slot
  let name := (Value.scalar entry.1).str?.getD (setup.str (.scalar entry.1))
  if ((Value.scalar entry.1).str?.any isKnownSection) = false then
    .error (.valueError s!"{path}: unknown section '{name}'")
  else
    match entry.2 with
    | .scalar .none => .ok []
    | .dict body => body.mapM (readKey setup slot name)
    | _ => .error (.valueError s!"{path}: section '{name}' must be a mapping of key: value")

/-- `_read_env_file`. -/
def readEnvFile (files : UserFiles Bytes) (slot : Slot) : Except PyError Env :=
  let path := setup.path slot
  match (files slot).content? with
  | none => .ok .empty
  | some bytes =>
    match setup.yaml.load bytes with
    | .error message => .error (.valueError s!"{path}: invalid YAML: {message}")
    | .ok (.scalar .none) => .ok .empty
    | .ok (.dict items) => do
      checkSchemaVersion path (items.lookup (.str "version"))
      let pairs ← (Value.pop "version" items).mapM (readSection setup slot)
      .ok (.ofList pairs.flatten)
    | .ok _ => .error (.valueError s!"{path}: expected a mapping of sections at the top level")

/-- `_check_distinct_paths`. -/
def checkDistinctPaths : Except PyError Unit :=
  if setup.resolved .config = setup.resolved .secrets then
    .error (.valueError ("config and secrets paths must be different " ++
      s!"(both resolve to {setup.resolved .config})"))
  else .ok ()

/-- `load_user_env`. -/
def loadUserEnv (files : UserFiles Bytes) : Except PyError Env := do
  checkDistinctPaths setup
  let config ← readEnvFile setup files .config
  let secrets ← readEnvFile setup files .secrets
  .ok (config.update secrets)

/-! ## Writing -/

/-- A variable with its section and key. -/
def sectionValue (entry : String × String) : Except PyError (String × String × String) :=
  match envToSectionKey entry.1 with
  | some found => .ok (found.1, found.2, entry.2)
  | none => .error (.keyError entry.1)

/-- The values of one section. -/
def sectionBody (grouped : List (String × String × String)) (sectionName : String) : Env :=
  .ofList ((grouped.filter (·.1 = sectionName)).map Prod.snd)

def sortedBody (body : Env) : List (String × String) :=
  body.entries.mergeSort fun a b ↦ decide (a.1 ≤ b.1)

/-- The values by section: sections in catalog order, keys sorted within each. -/
def orderedSections (grouped : List (String × String × String)) :
    List (String × List (String × String)) :=
  envSections.filterMap fun found ↦
    if (sectionBody grouped found.name).entries.isEmpty then none
    else some (found.name, sortedBody (sectionBody grouped found.name))

/-- `_to_sections`. -/
def toSections (env : Env) : Except PyError (List (String × List (String × String))) := do
  let grouped ← env.entries.mapM sectionValue
  .ok (orderedSections grouped)

/-- `_write_env_file`: the file is refused, or replaced as a whole. -/
def writeEnvFile (os : OsFaults) (files : UserFiles Bytes) (slot : Slot) (env : Env) :
    Except PyError (UserFiles Bytes) :=
  match os.prepare slot with
  | some error => .error error
  | none =>
    match files slot with
    | .symlink _ =>
      .error (.osError s!"refusing to write through symlink: {setup.path slot}")
    | _ =>
      match toSections env with
      | .error error => .error error
      | .ok sections =>
        match os.replace slot with
        | some error => .error error
        | none =>
          .ok (Function.update files slot (.regular (setup.yaml.dump (sectionData sections))))

/-- `_write_or_remove_env_file`. -/
def writeOrRemoveEnvFile (os : OsFaults) (files : UserFiles Bytes) (slot : Slot) (env : Env) :
    Except PyError (UserFiles Bytes) :=
  if env.entries.isEmpty then
    match files slot, os.unlink slot with
    | .absent, _ => .ok files
    | _, some error => .error error
    | _, none => .ok (Function.update files slot .absent)
  else writeEnvFile setup os files slot env

/-- The files and the outcome of a call. -/
abbrev CallResult (Bytes : Type) := UserFiles Bytes × Except PyError Unit

/-- Change one file after the other; what was done to the first stays when the second raises. -/
def changeFiles (files : UserFiles Bytes)
    (first second : UserFiles Bytes → Except PyError (UserFiles Bytes)) : CallResult Bytes :=
  match first files with
  | .error error => (files, .error error)
  | .ok afterFirst =>
    match second afterFirst with
    | .error error => (afterFirst, .error error)
    | .ok afterSecond => (afterSecond, .ok ())

/-- The values which are given, or which reading the files finds. -/
def existingEnv (os : OsFaults) (files : UserFiles Bytes) : Option Env → Except PyError Env
  | some env => .ok env
  | none =>
    match os.read .config, os.read .secrets with
    | some error, _ => .error error
    | none, some error => .error error
    | none, none => loadUserEnv setup files

/-- A value of a call, checked. -/
def checkValue (entry : String × Value) : Except PyError (String × String) := do
  checkPersistable entry.1 ""
  match entry.2.str? with
  | none => .error (.valueError s!"'{entry.1}' value must be a string")
  | some value => .ok (entry.1, value)

/-- `write_user_config`. -/
def writeUserConfig (os : OsFaults) (files : UserFiles Bytes) (values : OrderedMap String Value)
    (existing : Option Env) : CallResult Bytes :=
  match checkDistinctPaths setup, values.entries.mapM checkValue with
  | .error error, _ => (files, .error error)
  | .ok (), .error error => (files, .error error)
  | .ok (), .ok checked =>
    match existingEnv setup os files existing with
    | .error error => (files, .error error)
    | .ok current =>
      let change (slot : Slot) (files : UserFiles Bytes) : Except PyError (UserFiles Bytes) :=
        let new : Env := .ofList (checked.filter fun entry ↦ slot.holds entry.1)
        if new.entries.isEmpty then .ok files
        else writeEnvFile setup os files slot ((current.filterKeys slot.holds).update new)
      changeFiles files (change .config) (change .secrets)

/-- `unset_user_config`. -/
def unsetUserConfig (os : OsFaults) (files : UserFiles Bytes) (names : List String)
    (existing : Option Env) : CallResult Bytes :=
  match checkDistinctPaths setup, names.mapM fun name ↦ checkPersistable name "" with
  | .error error, _ => (files, .error error)
  | .ok (), .error error => (files, .error error)
  | .ok (), .ok _ =>
    match existingEnv setup os files existing with
    | .error error => (files, .error error)
    | .ok current =>
      let change (slot : Slot) (files : UserFiles Bytes) : Except PyError (UserFiles Bytes) :=
        let kept := current.filterKeys slot.holds
        let remaining := kept.filterKeys fun name ↦ !names.contains name
        if remaining.entries = kept.entries then .ok files
        else writeOrRemoveEnvFile setup os files slot remaining
      changeFiles files (change .config) (change .secrets)

/-! ## What a file holds -/

/-- The part of the values which belongs into a file. -/
def Slot.part (slot : Slot) (content : String → Option String) (name : String) : Option String :=
  if slot.holds name then content name else none

/-- A file can be read and holds these values. -/
def Stored (files : UserFiles Bytes) (slot : Slot) (content : String → Option String) : Prop :=
  ∃ env, readEnvFile setup files slot = .ok env ∧ ∀ name, env.get? name = content name

variable {setup}

theorem Stored.congr {files files' : UserFiles Bytes} {slot : Slot}
    {content : String → Option String} (h : Stored setup files slot content)
    (hfile : files' slot = files slot) : Stored setup files' slot content := by
  obtain ⟨env, hread, hcontent⟩ := h
  refine ⟨env, ?_, hcontent⟩
  rw [readEnvFile, hfile]
  exact hread

theorem Stored.of_eq {files : UserFiles Bytes} {slot : Slot} {content content' : String → Option String}
    (h : Stored setup files slot content) (heq : content = content') :
    Stored setup files slot content' := heq ▸ h

/-- A value which is read belongs into its file and may be persisted. -/
theorem readKey_ok {slot : Slot} {sectionName : String} {entry : Scalar × Value}
    {result : String × String} (h : readKey setup slot sectionName entry = .ok result) :
    isPersistable result.1 = true ∧ slot.holds result.1 = true := by
  unfold readKey at h
  simp only at h
  split at h
  · cases h
  · rename_i name _
    split at h
    · cases h
    · rename_i hpersistable
      split at h
      · cases h
      · split_ifs at h with hsecrets hconfig
        cases h
        refine ⟨isPersistable_of_checkPersistable hpersistable, ?_⟩
        cases slot with
        | config => simpa [Slot.holds] using hconfig
        | secrets => simpa [Slot.holds] using hsecrets

theorem readEnvFile_ok {files : UserFiles Bytes} {slot : Slot} {env : Env}
    (h : readEnvFile setup files slot = .ok env) {name value : String}
    (hname : env.get? name = some value) :
    isPersistable name = true ∧ slot.holds name = true := by
  unfold readEnvFile at h
  simp only at h
  split at h
  · cases h
    cases hname
  · split at h
    · cases h
    · cases h
      cases hname
    · rename_i items _
      cases hversion : checkSchemaVersion (setup.path slot) (items.lookup (.str "version")) with
      | error error =>
        rw [hversion] at h
        cases h
      | ok _ =>
        cases hpairs : (Value.pop "version" items).mapM (readSection setup slot) with
        | error error =>
          rw [hversion, hpairs] at h
          cases h
        | ok pairs =>
          rw [hversion, hpairs] at h
          cases h
          obtain ⟨body, hbody, hmem⟩ := List.mem_flatten.mp (OrderedMap.mem_ofList hname)
          obtain ⟨entry, _, hsection⟩ := (mem_of_mapM_ok hpairs body).mp hbody
          unfold readSection at hsection
          simp only at hsection
          split_ifs at hsection
          split at hsection
          · cases hsection
            cases hmem
          · obtain ⟨_, _, hkey⟩ := (mem_of_mapM_ok hsection _).mp hmem
            exact readKey_ok hkey
          · cases hsection
    · cases h

/-- Loading reads both files. -/
theorem loadUserEnv_ok {files : UserFiles Bytes} {before : Env}
    (h : loadUserEnv setup files = .ok before) :
    checkDistinctPaths setup = .ok () ∧ ∀ slot : Slot,
      Stored setup files slot (slot.part before.get?) := by
  unfold loadUserEnv at h
  cases hpaths : checkDistinctPaths setup with
  | error error => rw [hpaths] at h; cases h
  | ok _ =>
    cases hconfig : readEnvFile setup files .config with
    | error error => rw [hpaths, hconfig] at h; cases h
    | ok config =>
      cases hsecrets : readEnvFile setup files .secrets with
      | error error => rw [hpaths, hconfig, hsecrets] at h; cases h
      | ok secrets =>
        rw [hpaths, hconfig, hsecrets] at h
        cases h
        refine ⟨rfl, fun slot ↦ ?_⟩
        have hnone {slot : Slot} {env : Env} (hread : readEnvFile setup files slot = .ok env)
            {name : String} (hname : slot.holds name = false) : env.get? name = none := by
          rw [Option.eq_none_iff_forall_ne_some]
          intro value hvalue
          rw [(readEnvFile_ok hread hvalue).2] at hname
          cases hname
        cases slot with
        | config =>
          refine ⟨config, hconfig, fun name ↦ ?_⟩
          rw [Slot.part, OrderedMap.get?_update]
          by_cases hname : Slot.config.holds name = true
          · have hother : Slot.secrets.holds name = false := by simpa [Slot.holds] using hname
            rw [if_pos hname, hnone hsecrets hother, Option.none_or]
          · rw [if_neg hname, hnone hconfig (Bool.eq_false_iff.mpr hname)]
        | secrets =>
          refine ⟨secrets, hsecrets, fun name ↦ ?_⟩
          rw [Slot.part, OrderedMap.get?_update]
          by_cases hname : Slot.secrets.holds name = true
          · have hother : Slot.config.holds name = false := by simpa [Slot.holds] using hname
            rw [if_pos hname, hnone hconfig hother, Option.or_none]
          · rw [if_neg hname, hnone hsecrets (Bool.eq_false_iff.mpr hname)]

/-- What both files hold is what is loaded. -/
theorem exists_loadUserEnv {files : UserFiles Bytes} {content : String → Option String}
    (hpaths : checkDistinctPaths setup = .ok ())
    (h : ∀ slot : Slot, Stored setup files slot (slot.part content)) :
    ∃ after, loadUserEnv setup files = .ok after ∧ ∀ name, after.get? name = content name := by
  obtain ⟨config, hconfig, hconfigContent⟩ := h .config
  obtain ⟨secrets, hsecrets, hsecretsContent⟩ := h .secrets
  refine ⟨config.update secrets, ?_, fun name ↦ ?_⟩
  · rw [loadUserEnv, hpaths, hconfig, hsecrets]
    rfl
  · rw [OrderedMap.get?_update, hconfigContent, hsecretsContent]
    cases hname : isSecretEnvVar name <;> simp [Slot.part, Slot.holds, hname]

/-! ## Dumping and reading back -/

/-- Where no section and key carries two values, a section's body holds what is grouped. -/
theorem get?_sectionBody {grouped : List (String × String × String)}
    (hunique : ∀ sectionName key value value', (sectionName, key, value) ∈ grouped →
      (sectionName, key, value') ∈ grouped → value = value') {sectionName key value : String} :
    (sectionBody grouped sectionName).get? key = some value ↔
      (sectionName, key, value) ∈ grouped := by
  have hpairs (key value : String) :
      (key, value) ∈ (grouped.filter (·.1 = sectionName)).map Prod.snd ↔
        (sectionName, key, value) ∈ grouped := by
    constructor
    · intro h
      obtain ⟨⟨other, entry⟩, hentry, rfl⟩ := List.mem_map.mp h
      obtain ⟨hgrouped, hsame⟩ := List.mem_filter.mp hentry
      have hother : other = sectionName := by simpa using hsame
      rwa [hother] at hgrouped
    · intro h
      exact List.mem_map.mpr ⟨_, List.mem_filter.mpr ⟨h, by simp⟩, rfl⟩
  rw [sectionBody, ← hpairs]
  apply OrderedMap.get?_ofList_of_unique
  intro key value value' hvalue hvalue'
  exact hunique _ _ _ _ ((hpairs key value).mp hvalue) ((hpairs key value').mp hvalue')

theorem mem_orderedSections {grouped : List (String × String × String)}
    (hknown : ∀ entry ∈ grouped, entry.1 ∈ envSections.map EnvSection.name)
    (hunique : ∀ sectionName key value value', (sectionName, key, value) ∈ grouped →
      (sectionName, key, value') ∈ grouped → value = value') (sectionName key value : String) :
    (∃ body, (sectionName, body) ∈ orderedSections grouped ∧ (key, value) ∈ body) ↔
      (sectionName, key, value) ∈ grouped := by
  constructor
  · rintro ⟨body, hmem, hvalue⟩
    obtain ⟨found, _, hsome⟩ := List.mem_filterMap.mp hmem
    split_ifs at hsome
    cases hsome
    rw [sortedBody, List.mem_mergeSort, OrderedMap.mem_entries_iff] at hvalue
    exact (get?_sectionBody hunique).mp hvalue
  · intro h
    obtain ⟨found, hfound, rfl⟩ := List.mem_map.mp (hknown _ h)
    have hentry := OrderedMap.mem_entries_iff.mpr ((get?_sectionBody hunique).mpr h)
    have hsome : ¬(sectionBody grouped found.name).entries.isEmpty = true := by
      rw [List.isEmpty_iff]
      exact List.ne_nil_of_mem hentry
    refine ⟨sortedBody (sectionBody grouped found.name),
      List.mem_filterMap.mpr ⟨found, hfound, if_neg hsome⟩, ?_⟩
    rw [sortedBody, List.mem_mergeSort]
    exact hentry

theorem sectionValue_ok_iff {entry : String × String} {result : String × String × String} :
    sectionValue entry = .ok result ↔
      envToSectionKey entry.1 = some (result.1, result.2.1) ∧ result.2.2 = entry.2 := by
  unfold sectionValue
  cases envToSectionKey entry.1 with
  | none => simp
  | some found =>
    rw [Except.ok.injEq, Option.some.injEq, Prod.ext_iff, Prod.ext_iff, Prod.ext_iff, and_assoc]
    exact and_congr_right fun _ ↦ and_congr_right fun _ ↦ eq_comm

/-- Grouping succeeds for persistable variables, and the sections hold each of them under its
section and key. -/
theorem exists_toSections {env : Env}
    (h : ∀ name value, env.get? name = some value → isPersistable name = true) :
    ∃ sections, toSections env = .ok sections ∧
      (∀ entry ∈ sections, entry.1 ∈ envSections.map EnvSection.name) ∧
      ∀ sectionName key value,
        (∃ body, (sectionName, body) ∈ sections ∧ (key, value) ∈ body) ↔
          ∃ name, env.get? name = some value ∧ envToSectionKey name = some (sectionName, key) := by
  have hgroup : ∀ entry ∈ env.entries, ∃ result, sectionValue entry = .ok result := by
    intro entry hentry
    obtain ⟨sectionName, key, hkey, _⟩ := exists_sectionKey
      (h entry.1 entry.2 (OrderedMap.mem_entries_iff.mp hentry))
    exact ⟨(sectionName, key, entry.2), sectionValue_ok_iff.mpr ⟨hkey, rfl⟩⟩
  obtain ⟨grouped, hgrouped⟩ := exists_mapM_ok hgroup
  have hmem (sectionName key value : String) : (sectionName, key, value) ∈ grouped ↔
      ∃ name, env.get? name = some value ∧ envToSectionKey name = some (sectionName, key) := by
    rw [mem_of_mapM_ok hgrouped]
    constructor
    · rintro ⟨⟨name, stored⟩, hentry, hresult⟩
      obtain ⟨hkey, hvalue⟩ := sectionValue_ok_iff.mp hresult
      have heq : value = stored := hvalue
      subst heq
      exact ⟨name, OrderedMap.mem_entries_iff.mp hentry, hkey⟩
    · rintro ⟨name, hname, hkey⟩
      exact ⟨(name, value), OrderedMap.mem_entries_iff.mpr hname, sectionValue_ok_iff.mpr ⟨hkey, rfl⟩⟩
  -- A section and a key lead back to one variable.
  have hback {sectionName key value : String} (hentry : (sectionName, key, value) ∈ grouped) :
      sectionName ∈ envSections.map EnvSection.name ∧
        ∃ name, sectionKeyToEnv sectionName key = some name ∧ env.get? name = some value := by
    obtain ⟨name, hname, hkey⟩ := (hmem _ _ _).mp hentry
    obtain ⟨_, _, hfound, hname', hknown⟩ := exists_sectionKey (h name value hname)
    rw [hkey, Option.some.injEq, Prod.mk.injEq] at hfound
    rw [hfound.1, hfound.2]
    exact ⟨hknown, name, hname', hname⟩
  have hunique : ∀ sectionName key value value', (sectionName, key, value) ∈ grouped →
      (sectionName, key, value') ∈ grouped → value = value' := by
    intro sectionName key value value' hfirst hsecond
    obtain ⟨_, name, hname, hvalue⟩ := hback hfirst
    obtain ⟨_, other, hother, hvalue'⟩ := hback hsecond
    rw [hname, Option.some.injEq] at hother
    rw [hother, hvalue', Option.some.injEq] at hvalue
    exact hvalue.symm
  refine ⟨orderedSections grouped, ?_, ?_, ?_⟩
  · rw [toSections, hgrouped]
    rfl
  · intro entry hentry
    obtain ⟨found, hfound, hsome⟩ := List.mem_filterMap.mp hentry
    split_ifs at hsome
    cases hsome
    exact List.mem_map_of_mem hfound
  · intro sectionName key value
    rw [← hmem]
    exact mem_orderedSections (fun entry hentry ↦ (hback hentry).1) hunique sectionName key value

theorem readSection_of_known {slot : Slot} {sectionName : String} (body : Items)
    (h : sectionName ∈ envSections.map EnvSection.name) :
    readSection setup slot (.str sectionName, .dict body) =
      body.mapM (readKey setup slot sectionName) := by
  have hknown := isKnownSection_of_mem h
  unfold readSection
  simp only [Value.str?, Option.any_some, hknown, Bool.true_eq_false, if_false, Option.getD_some]

/-- A dumped file is read back as it was. -/
theorem stored_dump {files : UserFiles Bytes} {slot : Slot} {env : Env}
    {sections : List (String × List (String × String))}
    (h : ∀ name value, env.get? name = some value →
      isPersistable name = true ∧ slot.holds name = true)
    (hsections : toSections env = .ok sections)
    (hfile : files slot = .regular (setup.yaml.dump (sectionData sections))) :
    Stored setup files slot env.get? := by
  obtain ⟨_, hsections', hknown, hmem⟩ := exists_toSections fun name value hname ↦
    (h name value hname).1
  rw [hsections, Except.ok.injEq] at hsections'
  subst hsections'
  -- Each stored entry is read as the variable it came from.
  have hkey {name sectionName key value : String} (hname : env.get? name = some value)
      (hfound : envToSectionKey name = some (sectionName, key)) :
      readKey setup slot sectionName (.str key, .str value) = .ok (name, value) := by
    obtain ⟨hpersistable, hholds⟩ := h name value hname
    obtain ⟨_, _, hfound', hback, _⟩ := exists_sectionKey hpersistable
    rw [hfound, Option.some.injEq, Prod.mk.injEq] at hfound'
    rw [← hfound'.1, ← hfound'.2] at hback
    unfold readKey
    simp only [Value.str?, Option.bind_some, hback, checkPersistable_of_isPersistable hpersistable]
    cases slot <;> simpa [Slot.holds] using hholds
  have hread : ∀ entry ∈ sections.map fun (name, body) ↦
      ((.str name : Scalar), Value.dict (body.map fun (key, value) ↦ (.str key, .str value))),
      ∃ pairs, readSection setup slot entry = .ok pairs := by
    intro entry hentry
    obtain ⟨⟨name, body⟩, hbody, rfl⟩ := List.mem_map.mp hentry
    have hall : ∀ item ∈ body.map fun (key, value) ↦ ((.str key : Scalar), Value.str value),
        ∃ pair, readKey setup slot name item = .ok pair := by
      intro item hitem
      obtain ⟨⟨key, value⟩, hpair, rfl⟩ := List.mem_map.mp hitem
      obtain ⟨found, hname, hfound⟩ := (hmem _ _ _).mp ⟨body, hbody, hpair⟩
      exact ⟨_, hkey hname hfound⟩
    obtain ⟨pairs, hpairs⟩ := exists_mapM_ok hall
    exact ⟨pairs, (readSection_of_known _ (hknown _ hbody)).trans hpairs⟩
  obtain ⟨pairs, hpairs⟩ := exists_mapM_ok hread
  have hpop : Value.pop "version" (sectionData sections) = sections.map fun (name, body) ↦
      ((.str name : Scalar), Value.dict (body.map fun (key, value) ↦ (.str key, .str value))) := by
    rw [Value.pop, sectionData, List.filter_cons_of_neg (by simp), List.filter_eq_self]
    intro entry hentry
    obtain ⟨⟨name, body⟩, hbody, rfl⟩ := List.mem_map.mp hentry
    have hname : name ≠ "version" := by
      intro heq
      have hmemName : "version" ∈ envSections.map EnvSection.name := heq ▸ hknown _ hbody
      exact absurd hmemName (by decide)
    simpa using hname
  refine ⟨OrderedMap.ofList pairs.flatten, ?_, ?_⟩
  · unfold readEnvFile
    simp only [hfile, FileEntry.content?, setup.yaml.load_dump, hpop]
    rw [hpairs]
    rfl
  · have hflatten (name value : String) :
        (name, value) ∈ pairs.flatten ↔ env.get? name = some value := by
      rw [List.mem_flatten]
      constructor
      · rintro ⟨found, hfound, hpair⟩
        obtain ⟨entry, hentry, hsection⟩ := (mem_of_mapM_ok hpairs found).mp hfound
        obtain ⟨⟨sectionName, body⟩, hbody, rfl⟩ := List.mem_map.mp hentry
        simp only [readSection_of_known _ (hknown _ hbody)] at hsection
        obtain ⟨item, hitem, hok⟩ := (mem_of_mapM_ok hsection _).mp hpair
        obtain ⟨⟨key, stored⟩, hstored, rfl⟩ := List.mem_map.mp hitem
        obtain ⟨other, hother, hfound⟩ := (hmem _ _ _).mp ⟨body, hbody, hstored⟩
        simp only [hkey hother hfound, Except.ok.injEq, Prod.mk.injEq] at hok
        rw [← hok.1, ← hok.2]
        exact hother
      · intro hname
        obtain ⟨sectionName, key, hfound, _⟩ := exists_sectionKey (h name value hname).1
        obtain ⟨body, hbody, hentry⟩ := (hmem sectionName key value).mpr ⟨name, hname, hfound⟩
        obtain ⟨found, hsection⟩ := hread _ (List.mem_map_of_mem hbody)
        refine ⟨found, (mem_of_mapM_ok hpairs found).mpr ⟨_, List.mem_map_of_mem hbody, hsection⟩, ?_⟩
        simp only [readSection_of_known _ (hknown _ hbody)] at hsection
        exact (mem_of_mapM_ok hsection _).mpr
          ⟨_, List.mem_map_of_mem hentry, hkey hname hfound⟩
    have hunique : ∀ name value value', (name, value) ∈ pairs.flatten →
        (name, value') ∈ pairs.flatten → value = value' := by
      intro name value value' hvalue hvalue'
      rw [hflatten] at hvalue hvalue'
      rw [hvalue, Option.some.injEq] at hvalue'
      exact hvalue'
    intro name
    apply Option.ext
    intro value
    rw [OrderedMap.get?_ofList_of_unique hunique, hflatten]

/-! ## Changing one file -/

variable (setup) in
/-- The operating system refuses to change a file, or the file is a link. -/
def Refused (os : OsFaults) (files : UserFiles Bytes) (slot : Slot) (error : PyError) : Prop :=
  os.prepare slot = some error ∨ os.replace slot = some error ∨ os.unlink slot = some error ∨
    ((∃ target, files slot = .symlink target) ∧
      error = .osError s!"refusing to write through symlink: {setup.path slot}")

variable (setup) in
/-- A file changes as a whole and alone, or nothing changes and the change was refused. -/
def Changed (os : OsFaults) (files : UserFiles Bytes) (slot : Slot)
    (content : String → Option String) : Except PyError (UserFiles Bytes) → Prop
  | .ok files' => (∀ other, other ≠ slot → files' other = files other) ∧
      Stored setup files' slot content
  | .error error => Refused setup os files slot error

theorem changed_writeEnvFile (os : OsFaults) (files : UserFiles Bytes) {slot : Slot} {env : Env}
    (h : ∀ name value, env.get? name = some value →
      isPersistable name = true ∧ slot.holds name = true) :
    Changed setup os files slot env.get? (writeEnvFile setup os files slot env) := by
  obtain ⟨sections, hsections, _⟩ := exists_toSections fun name value hname ↦ (h name value hname).1
  have hwrite : Changed setup os files slot env.get?
      (match os.replace slot with
        | some error => .error error
        | none =>
          .ok (Function.update files slot (.regular (setup.yaml.dump (sectionData sections))))) := by
    cases hreplace : os.replace slot with
    | some error => exact Or.inr (Or.inl hreplace)
    | none =>
      refine ⟨fun other hother ↦ Function.update_of_ne hother _ _, ?_⟩
      apply stored_dump h hsections
      exact Function.update_self ..
  unfold writeEnvFile
  cases hprepare : os.prepare slot with
  | some error => exact Or.inl hprepare
  | none =>
    simp only [hsections]
    cases hfile : files slot with
    | symlink target => exact Or.inr (Or.inr (Or.inr ⟨⟨target, hfile⟩, rfl⟩))
    | absent => exact hwrite
    | regular bytes => exact hwrite

theorem stored_absent {files : UserFiles Bytes} {slot : Slot} {content : String → Option String}
    (hfile : files slot = .absent) (hcontent : ∀ name, content name = none) :
    Stored setup files slot content := by
  refine ⟨OrderedMap.empty, ?_, fun name ↦ ?_⟩
  · rw [readEnvFile, hfile]
    rfl
  · rw [hcontent, OrderedMap.get?_empty]

theorem changed_writeOrRemoveEnvFile (os : OsFaults) (files : UserFiles Bytes) {slot : Slot}
    {env : Env} (h : ∀ name value, env.get? name = some value →
      isPersistable name = true ∧ slot.holds name = true) :
    Changed setup os files slot env.get? (writeOrRemoveEnvFile setup os files slot env) := by
  unfold writeOrRemoveEnvFile
  by_cases hempty : env.entries.isEmpty = true
  · rw [if_pos hempty]
    have hnone (name : String) : env.get? name = none := by
      rw [OrderedMap.get?, List.isEmpty_iff.mp hempty]
      rfl
    cases hfile : files slot with
    | absent => exact ⟨fun _ _ ↦ rfl, stored_absent hfile hnone⟩
    | _ =>
      cases hunlink : os.unlink slot with
      | some error => exact Or.inr (Or.inr (Or.inl hunlink))
      | none =>
        exact ⟨fun other hother ↦ Function.update_of_ne hother _ _,
          stored_absent (Function.update_self ..) hnone⟩
  · rw [if_neg hempty]
    exact changed_writeEnvFile os files h

/-! ## Changing both files -/

variable (setup) in
/-- What a call may do which turns the values `before` into `target`. When it returns, `target` is
loaded, each value from the file it belongs into. When it raises, the secrets are as they were, and
so is the other file, unless the secrets could not be changed after it was: then it already holds its
part of `target`. -/
structure ChangesUserFiles (os : OsFaults) (files : UserFiles Bytes)
    (target : String → Option String) (result : CallResult Bytes) : Prop where
  loaded : result.2 = .ok () →
    ∃ after, loadUserEnv setup result.1 = .ok after ∧ ∀ name, after.get? name = target name
  separated : result.2 = .ok () → ∀ slot : Slot, Stored setup result.1 slot (slot.part target)
  secretsKept : ∀ error, result.2 = .error error → result.1 .secrets = files .secrets
  configKept : ∀ error, result.2 = .error error → result.1 .config = files .config ∨
    (Refused setup os files .secrets error ∧ Stored setup result.1 .config (Slot.config.part target))

/-- Nothing is changed by a call which raises at once. -/
theorem ChangesUserFiles.of_error {os : OsFaults} {files : UserFiles Bytes}
    {target : String → Option String} (error : PyError) :
    ChangesUserFiles setup os files target (files, .error error) where
  loaded := by intro h; cases h
  separated := by intro h; cases h
  secretsKept := fun _ _ ↦ rfl
  configKept := fun _ _ ↦ Or.inl rfl

theorem changesUserFiles_changeFiles {os : OsFaults} {files : UserFiles Bytes}
    {target : String → Option String}
    {first second : UserFiles Bytes → Except PyError (UserFiles Bytes)}
    (hpaths : checkDistinctPaths setup = .ok ())
    (hfirst : Changed setup os files .config (Slot.config.part target) (first files))
    (hsecond : ∀ files', files' .secrets = files .secrets →
      Changed setup os files' .secrets (Slot.secrets.part target) (second files')) :
    ChangesUserFiles setup os files target (changeFiles files first second) := by
  cases hone : first files with
  | error error =>
    have hresult : changeFiles files first second = (files, .error error) := by
      simp only [changeFiles, hone]
    rw [hresult]
    exact .of_error error
  | ok afterFirst =>
    rw [hone] at hfirst
    obtain ⟨hframe, hconfig⟩ := hfirst
    have hsame : afterFirst .secrets = files .secrets := hframe .secrets (by decide)
    have htwo := hsecond afterFirst hsame
    cases hres : second afterFirst with
    | error error =>
      have hresult : changeFiles files first second = (afterFirst, .error error) := by
        simp only [changeFiles, hone, hres]
      have hrefused : Refused setup os files .secrets error := by
        rw [hres] at htwo
        unfold Changed Refused at htwo
        rw [hsame] at htwo
        exact htwo
      rw [hresult]
      constructor
      · intro h
        cases h
      · intro h
        cases h
      · exact fun _ _ ↦ hsame
      · intro other hother
        cases hother
        exact Or.inr ⟨hrefused, hconfig⟩
    | ok afterSecond =>
      have hresult : changeFiles files first second = (afterSecond, .ok ()) := by
        simp only [changeFiles, hone, hres]
      rw [hres] at htwo
      obtain ⟨hframe', hsecrets⟩ := htwo
      have hboth : ∀ slot : Slot, Stored setup afterSecond slot (slot.part target) := by
        intro slot
        cases slot with
        | config => exact hconfig.congr (hframe' .config (by decide))
        | secrets => exact hsecrets
      rw [hresult]
      constructor
      · exact fun _ ↦ exists_loadUserEnv hpaths hboth
      · exact fun _ ↦ hboth
      · intro error h
        cases h
      · intro error h
        cases h

/-- The values of a call which are strings. -/
def givenValue (values : OrderedMap String Value) (name : String) : Option String :=
  (values.get? name).bind Value.str?

theorem checkValue_ok_iff {entry : String × Value} {result : String × String} :
    checkValue entry = .ok result ↔ checkPersistable entry.1 "" = .ok () ∧
      result.1 = entry.1 ∧ entry.2.str? = some result.2 := by
  unfold checkValue
  cases hcheck : checkPersistable entry.1 "" with
  | error error =>
    constructor
    · intro h
      cases h
    · intro h
      cases h.1
  | ok _ =>
    cases hvalue : entry.2.str? with
    | none =>
      constructor
      · intro h
        cases h
      · intro h
        cases h.2.2
    | some value =>
      constructor
      · intro h
        cases h
        exact ⟨rfl, rfl, rfl⟩
      · rintro ⟨_, hname, hvalue'⟩
        rw [Option.some.injEq] at hvalue'
        exact congrArg Except.ok (Prod.ext hname.symm hvalue')

/-- Where all values pass, each given string belongs to a persistable variable. -/
theorem isPersistable_of_checked {values : OrderedMap String Value}
    {checked : List (String × String)} (h : values.entries.mapM checkValue = .ok checked)
    {name value : String} (hvalue : givenValue values name = some value) :
    isPersistable name = true := by
  obtain ⟨found, hfound, _⟩ := Option.bind_eq_some_iff.mp hvalue
  obtain ⟨i, hi, hentry⟩ := List.getElem_of_mem (OrderedMap.mem_entries_iff.mpr hfound)
  have hforall := mapM_eq_ok_iff.mp h
  have hok := hforall.get hi (hforall.length_eq ▸ hi)
  simp only [List.get_eq_getElem, hentry] at hok
  exact isPersistable_of_checkPersistable (checkValue_ok_iff.mp hok).1

/-- The checked values are the given strings. -/
theorem mem_checked {values : OrderedMap String Value} {checked : List (String × String)}
    (h : values.entries.mapM checkValue = .ok checked) {name value : String} :
    (name, value) ∈ checked ↔ givenValue values name = some value := by
  rw [mem_of_mapM_ok h]
  constructor
  · rintro ⟨⟨other, found⟩, hentry, hok⟩
    obtain ⟨_, hname, hvalue⟩ := checkValue_ok_iff.mp hok
    simp only at hname hvalue
    subst hname
    rw [givenValue, OrderedMap.mem_entries_iff.mp hentry]
    exact hvalue
  · intro hvalue
    have hpersistable := isPersistable_of_checked h hvalue
    obtain ⟨found, hfound, hstr⟩ := Option.bind_eq_some_iff.mp hvalue
    exact ⟨(name, found), OrderedMap.mem_entries_iff.mpr hfound,
      checkValue_ok_iff.mpr ⟨checkPersistable_of_isPersistable hpersistable "", rfl, hstr⟩⟩

/-- The values which a file gets from a call. -/
theorem get?_new {values : OrderedMap String Value} {checked : List (String × String)}
    (h : values.entries.mapM checkValue = .ok checked) (slot : Slot) (name : String) :
    (OrderedMap.ofList (checked.filter fun entry ↦ slot.holds entry.1)).get? name =
      slot.part (givenValue values) name := by
  have hmem (name value : String) :
      (name, value) ∈ checked.filter (fun entry ↦ slot.holds entry.1) ↔
        slot.part (givenValue values) name = some value := by
    rw [List.mem_filter, mem_checked h, Slot.part]
    by_cases hholds : slot.holds name = true
    · simp [hholds]
    · simp [hholds]
  have hunique : ∀ name value value',
      (name, value) ∈ checked.filter (fun entry ↦ slot.holds entry.1) →
      (name, value') ∈ checked.filter (fun entry ↦ slot.holds entry.1) → value = value' := by
    intro name value value' hvalue hvalue'
    rw [hmem] at hvalue hvalue'
    rw [hvalue, Option.some.injEq] at hvalue'
    exact hvalue'
  apply Option.ext
  intro value
  rw [OrderedMap.get?_ofList_of_unique hunique, hmem]

/-! ## The calls -/

theorem isPersistable_of_loaded {files : UserFiles Bytes} {before : Env}
    (h : loadUserEnv setup files = .ok before) {name value : String}
    (hname : before.get? name = some value) : isPersistable name = true := by
  have hstored := (loadUserEnv_ok h).2
  have hread (slot : Slot) (hholds : slot.holds name = true) : isPersistable name = true := by
    obtain ⟨env, henv, hcontent⟩ := hstored slot
    have hvalue : env.get? name = some value := by
      rw [hcontent, Slot.part, if_pos hholds, hname]
    exact (readEnvFile_ok henv hvalue).1
  cases hsecret : isSecretEnvVar name with
  | false => exact hread .config (by simp [Slot.holds, hsecret])
  | true => exact hread .secrets (by simp [Slot.holds, hsecret])

theorem existingEnv_eq {files : UserFiles Bytes} {before current : Env} {existing : Option Env}
    {os : OsFaults} (hload : loadUserEnv setup files = .ok before)
    (hexisting : existing = none ∨ existing = some before)
    (h : existingEnv setup os files existing = .ok current) : current = before := by
  rcases hexisting with rfl | rfl
  · unfold existingEnv at h
    simp only at h
    split at h
    · cases h
    · cases h
    · rw [hload, Except.ok.injEq] at h
      exact h.symm
  · exact (Except.ok.inj h).symm

/-- The values which are loaded after a call that gives new ones. -/
def updatedValue (before : Env) (values : OrderedMap String Value) (name : String) : Option String :=
  (givenValue values name).or (before.get? name)

/-- The values which are loaded after a call that removes names. -/
def remainingValue (before : Env) (names : List String) (name : String) : Option String :=
  if name ∈ names then none else before.get? name

theorem changesUserFiles_write (os : OsFaults) {files : UserFiles Bytes} {before : Env}
    {existing : Option Env} (hload : loadUserEnv setup files = .ok before)
    (hexisting : existing = none ∨ existing = some before) (values : OrderedMap String Value) :
    ChangesUserFiles setup os files (updatedValue before values)
      (writeUserConfig setup os files values existing) := by
  obtain ⟨hpaths, hstored⟩ := loadUserEnv_ok hload
  unfold writeUserConfig
  rw [hpaths]
  cases hchecked : values.entries.mapM checkValue with
  | error error => exact .of_error error
  | ok checked =>
    simp only
    cases hcurrent : existingEnv setup os files existing with
    | error error => exact .of_error error
    | ok current =>
      have hsame := existingEnv_eq hload hexisting hcurrent
      subst hsame
      have hpart (slot : Slot) (name : String) :
          ((current.filterKeys slot.holds).update
            (.ofList (checked.filter fun entry ↦ slot.holds entry.1))).get? name =
              slot.part (updatedValue current values) name := by
        rw [OrderedMap.get?_update, OrderedMap.get?_filterKeys, get?_new hchecked, Slot.part,
          Slot.part, updatedValue]
        split <;> rfl
      have hchange (slot : Slot) (files' : UserFiles Bytes) (hfile : files' slot = files slot) :
          Changed setup os files' slot (slot.part (updatedValue current values))
            (if (OrderedMap.ofList
                (checked.filter fun entry ↦ slot.holds entry.1)).entries.isEmpty then .ok files'
              else writeEnvFile setup os files' slot ((current.filterKeys slot.holds).update
                (.ofList (checked.filter fun entry ↦ slot.holds entry.1)))) := by
        split
        · rename_i hempty
          refine ⟨fun _ _ ↦ rfl, ((hstored slot).congr hfile).of_eq ?_⟩
          funext name
          rw [← hpart, OrderedMap.update, List.isEmpty_iff.mp hempty]
          exact (OrderedMap.get?_filterKeys ..).symm
        · rw [← funext (hpart slot)]
          apply changed_writeEnvFile
          intro name value hvalue
          rw [hpart, Slot.part] at hvalue
          split at hvalue
          · rename_i hholds
            refine ⟨?_, hholds⟩
            rcases Option.or_eq_some_iff.mp hvalue with hgiven | ⟨_, hbefore⟩
            · exact isPersistable_of_checked hchecked hgiven
            · exact isPersistable_of_loaded hload hbefore
          · cases hvalue
      exact changesUserFiles_changeFiles hpaths (hchange .config files rfl)
        fun files' hsecrets ↦ hchange .secrets files' hsecrets

theorem changesUserFiles_unset (os : OsFaults) {files : UserFiles Bytes} {before : Env}
    {existing : Option Env} (hload : loadUserEnv setup files = .ok before)
    (hexisting : existing = none ∨ existing = some before) (names : List String) :
    ChangesUserFiles setup os files (remainingValue before names)
      (unsetUserConfig setup os files names existing) := by
  obtain ⟨hpaths, hstored⟩ := loadUserEnv_ok hload
  unfold unsetUserConfig
  rw [hpaths]
  cases hchecked : names.mapM fun name ↦ checkPersistable name "" with
  | error error => exact .of_error error
  | ok checked =>
    simp only
    cases hcurrent : existingEnv setup os files existing with
    | error error => exact .of_error error
    | ok current =>
      have hsame := existingEnv_eq hload hexisting hcurrent
      subst hsame
      have hpart (slot : Slot) (name : String) :
          ((current.filterKeys slot.holds).filterKeys fun name ↦ !names.contains name).get? name =
            slot.part (remainingValue current names) name := by
        rw [OrderedMap.get?_filterKeys, OrderedMap.get?_filterKeys, Slot.part, remainingValue]
        by_cases hname : name ∈ names
        · simp [hname]
        · simp [hname]
      have hchange (slot : Slot) (files' : UserFiles Bytes) (hfile : files' slot = files slot) :
          Changed setup os files' slot (slot.part (remainingValue current names))
            (if ((current.filterKeys slot.holds).filterKeys
                fun name ↦ !names.contains name).entries = (current.filterKeys slot.holds).entries
              then .ok files'
              else writeOrRemoveEnvFile setup os files' slot
                ((current.filterKeys slot.holds).filterKeys fun name ↦ !names.contains name)) := by
        split
        · rename_i hentries
          refine ⟨fun _ _ ↦ rfl, ((hstored slot).congr hfile).of_eq ?_⟩
          funext name
          rw [← hpart, OrderedMap.get?, hentries]
          exact (OrderedMap.get?_filterKeys ..).symm
        · rw [← funext (hpart slot)]
          apply changed_writeOrRemoveEnvFile
          intro name value hvalue
          rw [hpart, Slot.part] at hvalue
          split at hvalue
          · rename_i hholds
            unfold remainingValue at hvalue
            split at hvalue
            · cases hvalue
            · exact ⟨isPersistable_of_loaded hload hvalue, hholds⟩
          · cases hvalue
      exact changesUserFiles_changeFiles hpaths (hchange .config files rfl)
        fun files' hsecrets ↦ hchange .secrets files' hsecrets

/-- Writing and unsetting change the files one after the other, each as a whole: what is returned is
loaded, and a call which raises leaves both files as they were unless it failed at the second. -/
theorem user_files_changed_apart (os : OsFaults) {files : UserFiles Bytes} {before : Env}
    {existing : Option Env} (hload : loadUserEnv setup files = .ok before)
    (hexisting : existing = none ∨ existing = some before) :
    (∀ values, ChangesUserFiles setup os files (updatedValue before values)
      (writeUserConfig setup os files values existing)) ∧
    (∀ names, ChangesUserFiles setup os files (remainingValue before names)
      (unsetUserConfig setup os files names existing)) :=
  ⟨changesUserFiles_write os hload hexisting, changesUserFiles_unset os hload hexisting⟩

end Files

/-- Files whose bytes are the mapping which is dumped into them. -/
def UserSetup.plain : UserSetup Value where
  yaml := { load := .ok, dump := .dict, load_dump := fun _ ↦ rfl }
  path := fun slot ↦ if slot = .config then "config.yml" else "secrets.yml"
  resolved := fun slot ↦ if slot = .config then "/home/isvctl/config.yml" else "/home/isvctl/secrets.yml"
  str := fun _ ↦ ""

/-- A value and a secret, in their files. -/
def storedFiles : UserFiles Value := fun slot ↦
  .regular (.dict (sectionData [("nico",
    [if slot = .config then ("api_base", "https://nico") else ("client_secret", "secret")])]))

theorem user_files_changed_apart_stored :
    let before : Env := .ofList [("NICO_API_BASE", "https://nico"), ("NICO_CLIENT_SECRET", "secret")]
    (∀ values, ChangesUserFiles UserSetup.plain {} storedFiles (updatedValue before values)
      (writeUserConfig UserSetup.plain {} storedFiles values none)) ∧
    (∀ names, ChangesUserFiles UserSetup.plain {} storedFiles (remainingValue before names)
      (unsetUserConfig UserSetup.plain {} storedFiles names none)) :=
  user_files_changed_apart {} rfl (Or.inl rfl)

/-- The secrets file is a link to nothing, and a value and a secret are written. -/
theorem secrets_link_splits_write :
    ¬∀ (files : UserFiles Value) (values : OrderedMap String Value) (error : PyError),
      (loadUserEnv UserSetup.plain files).isOk = true →
      (writeUserConfig UserSetup.plain {} files values none).2 = .error error →
        ∀ slot, (writeUserConfig UserSetup.plain {} files values none).1 slot = files slot := by
  intro h
  let files : UserFiles Value := fun slot ↦ if slot = .config then .absent else .symlink none
  let values : OrderedMap String Value :=
    .ofList [("NICO_API_BASE", .str "https://nico"), ("NICO_CLIENT_SECRET", .str "secret")]
  have hsplit := h files values (.osError "refusing to write through symlink: secrets.yml") rfl
    (by decide +kernel) .config
  have hwritten : ((writeUserConfig UserSetup.plain {} files values none).1 .config).content?.isSome =
      true := by decide +kernel
  rw [hsplit] at hwritten
  cases hwritten

end IsvValidation.Config
