import IsvValidation.Host.Text
import IsvValidation.Library.OrderedMap

/-!
# The catalog of environment variables

The variables which can be persisted, the sections of the user files, and the translation between a
variable and its section and key. The translation and the rule for secrets are evaluated on the
catalog, which is small, and everything else uses what that shows: each persistable variable has a
section and a key, and they lead back to it.
-/

namespace IsvValidation.Config

open Host Library

/-- One environment variable in the catalog. -/
structure EnvVar where
  name : String
  group : String
  persistable : Bool := true

/-- `ENV_VARS`. -/
def envVars : List EnvVar :=
  [⟨"ISV_SERVICE_ENDPOINT", "ISV Lab Service", true⟩,
    ⟨"ISV_SSA_ISSUER", "ISV Lab Service", true⟩,
    ⟨"ISV_CLIENT_ID", "ISV Lab Service", true⟩,
    ⟨"ISV_CLIENT_SECRET", "ISV Lab Service", true⟩,
    ⟨"NGC_API_KEY", "NGC", true⟩,
    ⟨"NGC_NIM_API_KEY", "NGC", true⟩,
    ⟨"AWS_ACCESS_KEY_ID", "AWS", true⟩,
    ⟨"AWS_SECRET_ACCESS_KEY", "AWS", true⟩,
    ⟨"AWS_REGION", "AWS", true⟩,
    ⟨"KUBECTL", "Flags", false⟩,
    ⟨"ISVCTL_DEMO_MODE", "Flags", false⟩,
    ⟨"AWS_SKIP_TEARDOWN", "Flags", false⟩,
    ⟨"NICO_ALLOW_ONLINE_REPAIR", "Flags", false⟩,
    ⟨"NICO_ALLOW_RELEASE_FOR_REPAIR", "Flags", false⟩,
    ⟨"NICO_API_BASE", "NICo", true⟩,
    ⟨"NICO_API_NAME", "NICo", true⟩,
    ⟨"NICO_ORGANIZATION", "NICo", true⟩,
    ⟨"NICO_SITE_ID", "NICo", true⟩,
    ⟨"NICO_BEARER_TOKEN", "NICo", true⟩,
    ⟨"NICO_SSA_ISSUER", "NICo", true⟩,
    ⟨"NICO_CLIENT_ID", "NICo", true⟩,
    ⟨"NICO_CLIENT_SECRET", "NICo", true⟩,
    ⟨"NICO_OIDC_SCOPE", "NICo", true⟩]

/-- A section of the user files, with the start which its variables share. -/
structure EnvSection where
  name : String
  group : String
  envStart : String

/-- `SECTIONS`. -/
def envSections : List EnvSection :=
  [⟨"isv_lab_service", "ISV Lab Service", "ISV_"⟩, ⟨"ngc", "NGC", "NGC_"⟩, ⟨"aws", "AWS", "AWS_"⟩,
    ⟨"nico", "NICo", "NICO_"⟩]

/-! ## Translation -/

def lowerAscii (text : String) : String := .ofList (text.toList.map Char.toLower)

def upperAscii (text : String) : String := .ofList (text.toList.map Char.toUpper)

/-- The section and the key of one variable, if its group has a section. -/
def sectionEntry (var : EnvVar) : Except PyError (Option (String × String × String)) :=
  match envSections.find? (·.group = var.group) with
  | none =>
    if var.persistable then
      .error (.valueError
        s!"persistable var '{var.name}' has no section for group '{var.group}'")
    else .ok none
  | some found =>
    if Text.startsWith var.name found.envStart then
      let key := lowerAscii (.ofList (var.name.toList.drop found.envStart.length))
      .ok (some (var.name, found.name, key))
    else
      .error (.valueError s!"'{var.name}' does not start with section prefix '{found.envStart}'")

/-- `_build_section_maps`, as the entries from which both tables are made. -/
def buildSectionMaps : Except PyError (List (Option (String × String × String))) :=
  envVars.mapM sectionEntry

def sectionEntries : List (String × String × String) :=
  match buildSectionMaps with
  | .ok entries => entries.filterMap id
  | .error _ => []

/-- `env_to_section_key`; a name without an entry raises. -/
def envToSectionKey (name : String) : Option (String × String) :=
  (OrderedMap.ofList sectionEntries).get? name

/-- `section_key_to_env`. -/
def sectionKeyToEnv (sectionName key : String) : Option String :=
  (OrderedMap.ofList (sectionEntries.map fun entry ↦ (entry.2, entry.1))).get? (sectionName, key)

/-- `is_known_section`. -/
def isKnownSection (name : String) : Bool := envSections.any (·.name = name)

def isPersistable (name : String) : Bool := envVars.any fun var ↦ var.persistable && var.name == name

def isPerRunFlag (name : String) : Bool := envVars.any fun var ↦ !var.persistable && var.name == name

/-- `_check_persistable`. -/
def checkPersistable (name position : String) : Except PyError Unit :=
  if isPerRunFlag name then
    .error (.valueError (s!"{position}'{name}' is a per-run flag and is not persisted; " ++
      "pass it on the command line or export it"))
  else if isPersistable name then .ok ()
  else
    .error (.valueError s!"{position}unknown env var '{name}' (not in the isvctl catalog)")

/-! ## Secrets -/

def sensitiveEnvVars : List String :=
  ["AWS_ACCESS_KEY_ID", "AWS_SECRET_ACCESS_KEY", "AWS_SESSION_TOKEN", "AZURE_CLIENT_SECRET",
    "AZURE_STORAGE_KEY", "AZURE_SUBSCRIPTION_KEY", "GOOGLE_API_KEY",
    "GOOGLE_APPLICATION_CREDENTIALS", "NGC_API_KEY", "NGC_NIM_API_KEY", "NICO_BEARER_TOKEN",
    "NICO_CLIENT_SECRET", "UFM_TOKEN", "ISV_CLIENT_SECRET"]

def sensitiveEnvSuffixes : List String :=
  ["_SECRET", "_PASSWORD", "_API_KEY", "_SECRET_KEY", "_SECRET_ACCESS_KEY", "_PRIVATE_KEY",
    "_ACCOUNT_KEY", "_CONNECTION_STRING"]

/-- `is_secret_env_var`, for names of ASCII characters. -/
def isSecretEnvVar (name : String) : Bool :=
  sensitiveEnvVars.contains name ||
    sensitiveEnvSuffixes.any fun tail ↦ tail.toList.isSuffixOf (upperAscii name).toList

/-! ## What the catalog shows -/

/-- Each persistable variable has a known section and a key, which lead back to it. -/
theorem exists_sectionKey {name : String} (h : isPersistable name = true) :
    ∃ sectionName key, envToSectionKey name = some (sectionName, key) ∧
      sectionKeyToEnv sectionName key = some name ∧
        sectionName ∈ envSections.map EnvSection.name := by
  have hall : ∀ var ∈ envVars, var.persistable = true →
      ((envToSectionKey var.name).any fun (sectionName, key) ↦
        decide (sectionKeyToEnv sectionName key = some var.name) &&
          decide (sectionName ∈ envSections.map EnvSection.name)) = true := by
    decide +kernel
  obtain ⟨var, hvar, hboth⟩ := List.any_eq_true.mp h
  rw [Bool.and_eq_true, beq_iff_eq] at hboth
  have hfound := hall var hvar hboth.1
  rw [hboth.2] at hfound
  obtain ⟨⟨sectionName, key⟩, hkey, hback⟩ := (Option.any_eq_true _ _).mp hfound
  rw [Bool.and_eq_true, decide_eq_true_eq, decide_eq_true_eq] at hback
  exact ⟨sectionName, key, hkey, hback.1, hback.2⟩

theorem isKnownSection_of_mem {name : String} (h : name ∈ envSections.map EnvSection.name) :
    isKnownSection name = true := by
  obtain ⟨found, hfound, rfl⟩ := List.mem_map.mp h
  exact List.any_eq_true.mpr ⟨found, hfound, by simp⟩

theorem checkPersistable_of_isPersistable {name : String} (h : isPersistable name = true)
    (position : String) : checkPersistable name position = .ok () := by
  have hflag : isPerRunFlag name = false := by
    have hall : ∀ var ∈ envVars, var.persistable = true → isPerRunFlag var.name = false := by
      decide +kernel
    obtain ⟨var, hvar, hboth⟩ := List.any_eq_true.mp h
    rw [Bool.and_eq_true, beq_iff_eq] at hboth
    rw [← hboth.2]
    exact hall var hvar hboth.1
  rw [checkPersistable, hflag, h]
  rfl

theorem isPersistable_of_checkPersistable {name position : String}
    (h : checkPersistable name position = .ok ()) : isPersistable name = true := by
  unfold checkPersistable at h
  split_ifs at h with _ hpersistable
  exact hpersistable

end IsvValidation.Config
