import IsvValidation.Catalog.Digest
import IsvValidation.Config.Response
import IsvValidation.Reporting.Provenance

/-!
# Catalog artifacts

The document of a catalog travels with the version and the source of the build which made it, and with its digest.
An artifact which another process has made is checked before it is published. What is published says again what the
artifact says, with the defaults filled in, so that the service finds the same digest.
-/

namespace IsvValidation.Reporting

open Catalog Config

/-- A document of a catalog, as `json.loads` gives it; what is absent is none. -/
structure Artifact where
  isvTestVersion : Option Json
  catalogDigest : Option Json
  isvTestBuildRef : Option Json
  document : CatalogDocument

/-- What the service is sent. -/
structure Published where
  isvTestVersion : String
  catalogDigest : String
  isvTestBuildRef : String
  document : CatalogDocument

/-- A text which is there and not empty. -/
def requiredText : Option Json → Option String
  | some (.str text) => if text = "" then none else some text
  | _ => none

/-- A text which is there. -/
def givenText : Option Json → Option String
  | some (.str text) => some text
  | _ => none

/-- A list which is there and is one. -/
def isGiven {α : Type} : Catalog.Field (List α) → Bool
  | .value _ => true
  | .absent | .null => false

def positiveVersion : Catalog.Field ℤ → Bool
  | .value version => 1 ≤ version
  | .absent | .null => false

/-- `_validate_artifact`: the version, the digest and the reference of an artifact in which nothing is wrong. -/
def validateArtifact (sha256 : ByteArray → String) (artifact : Artifact) : Option (String × String × String) := do
  let version ← requiredText artifact.isvTestVersion
  let digest ← givenText artifact.catalogDigest
  let reference ← requiredText artifact.isvTestBuildRef
  if artifact.document.entries.isSome && positiveVersion artifact.document.schemaVersion &&
      isGiven artifact.document.capabilities && isGiven artifact.document.suites &&
      digest = Catalog.catalogDigest sha256 artifact.document then
    some (version, digest, reference)
  else none

/-- A field with its default. -/
def withDefault {α : Type} (default : α) : Catalog.Field α → Catalog.Field α
  | .absent => .value default
  | field => field

/-- An entry as it is sent; one without a name is not. -/
def payloadEntry (entry : CatalogEntry) : Option CatalogEntry :=
  match entry.name with
  | .absent => none
  | name => some {
      name
      description := withDefault "" entry.description
      labels := withDefault [] entry.labels
      suite := withDefault "" entry.suite
      capability := match entry.capability with
        | .absent => .null
        | capability => capability
      requires := withDefault [] entry.requires
      testIds := withDefault [] entry.testIds }

/-- The part of the payload which is the document. -/
def payloadDocument (document : CatalogDocument) : Option CatalogDocument :=
  ((document.entries.getD []).mapM payloadEntry).map fun entries ↦
    { schemaVersion := document.schemaVersion
      capabilities := document.capabilities
      suites := document.suites
      entries := some entries }

/-! ## What is sent says what is meant -/

theorem get_withDefault {α : Type} {default : α} {field : Catalog.Field α} :
    (withDefault default field).get (some default) = field.get (some default) := by
  cases field <;> rfl

theorem orEmpty_withDefault {α : Type} {field : Catalog.Field (List α)} : (withDefault [] field).orEmpty = field.orEmpty := by
  cases field <;> rfl

theorem contract_payloadEntry {entry sent : CatalogEntry} (h : payloadEntry entry = some sent) :
    sent.contract none = entry.contract none := by
  unfold payloadEntry at h
  have hcapability : ∀ capability : Catalog.Field String, (match capability with
      | .absent => .null
      | capability => capability : Catalog.Field String).get none = capability.get none := by
    intro capability
    cases capability <;> rfl
  split at h
  · cases h
  · cases h
    simp only [CatalogEntry.contract, get_withDefault, orEmpty_withDefault, hcapability]

theorem contracts_payloadEntries {entries sent : List CatalogEntry} (h : entries.mapM payloadEntry = some sent) :
    sent.map (CatalogEntry.contract none) = entries.map (CatalogEntry.contract none) := by
  induction entries generalizing sent with
  | nil =>
    cases h
    rfl
  | cons entry entries ih =>
    rw [List.mapM_cons] at h
    obtain ⟨first, hfirst, hrest⟩ := Option.bind_eq_some_iff.mp h
    obtain ⟨rest, hmap, heq⟩ := Option.bind_eq_some_iff.mp hrest
    cases heq
    rw [List.map_cons, List.map_cons, contract_payloadEntry hfirst, ih hmap]

/-- What is sent has the contract, and so the digest, of the document. -/
theorem contract_payloadDocument {document sent : CatalogDocument} (h : payloadDocument document = some sent) :
    sent.contract none = document.contract none := by
  obtain ⟨entries, hentries, rfl⟩ := Option.map_eq_some_iff.mp h
  simp only [CatalogDocument.contract, Option.getD_some, contracts_payloadEntries hentries]

theorem digest_of_validateArtifact {sha256 : ByteArray → String} {artifact : Artifact} {version digest reference : String}
    (h : validateArtifact sha256 artifact = some (version, digest, reference)) :
    digest = Catalog.catalogDigest sha256 artifact.document := by
  unfold validateArtifact at h
  obtain ⟨found, -, h⟩ := Option.bind_eq_some_iff.mp h
  obtain ⟨recorded, -, h⟩ := Option.bind_eq_some_iff.mp h
  obtain ⟨source, -, h⟩ := Option.bind_eq_some_iff.mp h
  obtain ⟨hchecks, heq⟩ := Option.ite_none_right_eq_some.mp h
  cases heq
  rw [Bool.and_eq_true] at hchecks
  exact of_decide_eq_true hchecks.2

end IsvValidation.Reporting
