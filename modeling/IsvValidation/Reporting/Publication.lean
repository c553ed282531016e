import IsvValidation.Library.Interference
import IsvValidation.Reporting.Lifecycle

/-!
# Publication of catalogs

`catalog push` publishes the catalog of a release, which it has built itself or finds in a file. Nothing is published
which is not verifiably a release, or whose digest is not the one it is published under. As the service takes no
second identity for a version, what a version publishes is fixed from then on.
-/

namespace IsvValidation.Reporting

open Catalog Config Host Library Library.Program

universe w

variable {World : Type w} {step : World → (call : Call) → Reply call → World → Prop} {world last : World}
  {trace : List (Exchange World Reply)}

/-! ## `catalog push` -/

structure PushOptions where
  dryRun : Bool := false
  /-- Whether an artifact is published which is there already. -/
  file : Bool := false

/-- What `hashlib` and the regular expressions do. -/
structure Publisher where
  machine : Machine
  data : UnicodeData
  sha256 : ByteArray → String

section Push

variable (publisher : Publisher) (environment : Environment) (options : PushOptions)

/-- The version, the digest, the reference and the document of an artifact. -/
abbrev Identified : Type := String × String × Option String × CatalogDocument

/-- What becomes of an artifact from a file; one which cannot be read or used ends the command. -/
def artifactOf (sha256 : ByteArray → String) : Except Failure (Option Artifact) → Except Raised Identified
  | .error .os | .error .missing => .error (.exit 1)
  | .error failure => .error (raisedBy failure)
  | .ok none => .error (.exit 1)
  | .ok (some artifact) =>
    match validateArtifact sha256 artifact with
    | none => .error (.exit 1)
    | some (version, digest, reference) => .ok (version, digest, some reference, artifact.document)

def readArtifact : Run Identified := do
  let read ← (invoke Call.readArtifact).attempt
  .ofExcept (artifactOf publisher.sha256 read)

/-- An artifact which is built, with its digest, and saved. -/
def buildArtifact : Run Identified := do
  let (version, reference, document) ← ask .buildDocument
  let _ ← ask (.saveDocument document)
  return (version, catalogDigest publisher.sha256 document, reference, document)

/-- Whether an upload was accepted; a refused one is only told. -/
def uploadedOf : Except Failure Json → Except Raised Bool
  | .ok _ => .ok true
  | .error (.http _) | .error .url => .ok false
  | .error failure => .error (raisedBy failure)

/-- `upload_test_catalog`. -/
def uploadTestCatalog (token version digest : String) (reference : Option String) (document : CatalogDocument) :
    Run Bool :=
  if buildIsRelease publisher.data version reference ≠ some true then return false
  else
    match reference, payloadDocument document with
    | some reference, some sent => do
      let published : Published := {
        isvTestVersion := version
        catalogDigest := digest
        isvTestBuildRef := reference
        document := sent }
      let uploaded ← (invoke (Call.uploadCatalog environment.endpoint token published)).attempt
      .ofExcept (uploadedOf uploaded)
    | _, _ => .raise (.exception .value)

/-- The part of `push` before the artifact is there. -/
def loadArtifact : Run Identified := if options.file then readArtifact publisher else buildArtifact publisher

/-- The part of `push` from the artifact on. -/
def pushArtifact (artifact : Identified) : Run Unit := do
  let (version, digest, reference, document) := artifact
  if buildIsRelease publisher.data version reference ≠ some true then .raise (.exit 1)
  else if options.dryRun then return ()
  else if !canUpload environment || environment.endpoint = "" || environment.ssaIssuer = "" then .raise (.exit 1)
  else
    let token ← getJwtToken publisher.machine environment
    let uploaded ← uploadTestCatalog publisher environment token version digest reference document
    if !uploaded then .raise (.exit 1)

/-- `push`. -/
def push : Run Unit := do
  let artifact ← loadArtifact publisher options
  pushArtifact publisher environment options artifact

end Push

/-! ## What is published -/

variable {publisher : Publisher} {environment : Environment} {options : PushOptions}

/-- A catalog which may be published: that of a release, under the digest of what is sent. -/
structure Published.Sound (publisher : Publisher) (published : Published) : Prop where
  release : buildIsRelease publisher.data published.isvTestVersion (some published.isvTestBuildRef) = some true
  digest : published.catalogDigest = Catalog.catalogDigest publisher.sha256 published.document

/-- The calls of a push. -/
def Call.Publishes (publisher : Publisher) (dryRun : Bool) : Call → Prop
  | .uploadCatalog _ _ published => published.Sound publisher ∧ dryRun = false
  | .token issuer _ _ => isSecureUrl publisher.machine issuer = true ∧ dryRun = false
  | .readArtifact | .buildDocument | .saveDocument _ => True
  | _ => False

def Call.isUpload : Call → Bool
  | .uploadCatalog _ _ _ => true
  | _ => false

theorem digest_of_artifactOf {sha256 : ByteArray → String} {read : Except Failure (Option Artifact)}
    {version digest : String} {reference : Option String} {document : CatalogDocument}
    (h : artifactOf sha256 read = .ok (version, digest, reference, document)) :
    digest = Catalog.catalogDigest sha256 document := by
  unfold artifactOf at h
  split at h
  · cases h
  · cases h
  · cases h
  · cases h
  · split at h
    · cases h
    · next hvalid =>
      cases h
      exact digest_of_validateArtifact hvalid

/-- The artifact which is published has the digest which it says, from wherever it comes. -/
theorem artifact_digest {version digest : String} {reference : Option String} {document : CatalogDocument}
    (h : Execution step world (loadArtifact publisher options) trace last
      (.ok (version, digest, reference, document))) : digest = Catalog.catalogDigest publisher.sha256 document := by
  unfold loadArtifact at h
  split_ifs at h
  · obtain ⟨first, read, middle, second, -, -, hread⟩ := Execution.bind_attempt h
    obtain ⟨-, -, hok⟩ := Execution.ofExcept_iff.mp hread
    exact digest_of_artifactOf hok.symm
  · obtain ⟨first, ⟨built, source, found⟩, middle, rest, -, -, hnext⟩ := Execution.bind_ok_iff.mp h
    obtain ⟨second, _, ended, nothing, -, -, hend⟩ := Execution.bind_ok_iff.mp hnext
    obtain ⟨-, -, hok⟩ := Execution.done_iff.mp hend
    cases hok
    rfl

theorem loadArtifact_calls : (loadArtifact publisher options).Calls fun call ↦
    call.Publishes publisher options.dryRun ∧ call.isUpload = false := by
  unfold loadArtifact
  split_ifs
  · exact .bind (.attempt (.invoke ⟨trivial, rfl⟩)) fun _ ↦ .ofExcept _
  · refine .bind (ask_calls ⟨trivial, rfl⟩) fun built ↦ ?_
    obtain ⟨version, reference, document⟩ := built
    exact .bind (ask_calls ⟨trivial, rfl⟩) fun _ ↦ .done _

theorem uploadedOf_true {reply : Except Failure Json} (h : uploadedOf reply = .ok true) : ∃ answer, reply = .ok answer := by
  unfold uploadedOf at h
  split at h
  · exact ⟨_, rfl⟩
  · cases h
  · cases h
  · cases h

/-- An upload sends nothing, or one sound catalog, with the contract of the document. -/
theorem uploadTestCatalog_spec {token version digest : String} {reference : Option String}
    {document : CatalogDocument} {outcome : Except Raised Bool}
    (hdigest : digest = Catalog.catalogDigest publisher.sha256 document)
    (h : Execution step world (uploadTestCatalog publisher environment token version digest reference document) trace
      last outcome) :
    (trace = [] ∧ outcome ≠ .ok true) ∨ ∃ (published : Published) (reply : Except Failure Json),
      published.Sound publisher ∧ published.document.contract none = document.contract none ∧
        trace = [⟨world, .uploadCatalog environment.endpoint token published, reply, last⟩] ∧
        outcome = uploadedOf reply := by
  unfold uploadTestCatalog at h
  split_ifs at h with hrelease
  · obtain ⟨rfl, -, rfl⟩ := Execution.done_iff.mp h
    exact .inl ⟨rfl, by simp⟩
  · split at h
    · next reference sent hsent =>
      obtain ⟨first, reply, middle, second, rfl, hupload, hend⟩ := Execution.bind_attempt h
      obtain ⟨rfl, -⟩ := Execution.invoke_iff.mp hupload
      obtain ⟨rfl, rfl, rfl⟩ := Execution.ofExcept_iff.mp hend
      have hcontract := contract_payloadDocument hsent
      have hsound : Published.Sound publisher ⟨version, digest, reference, sent⟩ :=
        { release := not_not.mp hrelease
          digest := hdigest.trans (catalogDigest_eq_of_contract_eq hcontract.symm) }
      exact .inr ⟨⟨version, digest, reference, sent⟩, reply, hsound, hcontract, rfl, rfl⟩
    · obtain ⟨rfl, -, rfl⟩ := Execution.raise_iff.mp h
      exact .inl ⟨rfl, by simp⟩

/-- A push asks for nothing more where it ends early; otherwise it asks for a token, and uploads at most once. -/
theorem pushArtifact_spec {version digest : String} {reference : Option String} {document : CatalogDocument}
    {outcome : Except Raised Unit} (hdigest : digest = Catalog.catalogDigest publisher.sha256 document)
    (h : Execution step world (pushArtifact publisher environment options (version, digest, reference, document)) trace
      last outcome) :
    (trace = [] ∧ (outcome = .ok () → options.dryRun = true)) ∨
    (options.dryRun = false ∧ isSecureUrl publisher.machine environment.ssaIssuer = true ∧ ∃ reply middle rest,
      trace = ⟨world, .token environment.ssaIssuer environment.clientId environment.clientSecret, reply, middle⟩ :: rest ∧
        ((rest = [] ∧ outcome ≠ .ok ()) ∨ ∃ (token : String) (published : Published) (sent : Except Failure Json),
          tokenOf reply = .ok token ∧ published.Sound publisher ∧
            published.document.contract none = document.contract none ∧
            rest = [⟨middle, .uploadCatalog environment.endpoint token published, sent, last⟩] ∧
            (outcome = .ok () ↔ ∃ answer, sent = .ok answer))) := by
  unfold pushArtifact at h
  dsimp only at h
  split at h
  · obtain ⟨rfl, -, rfl⟩ := Execution.raise_iff.mp h
    exact .inl ⟨rfl, by simp⟩
  split at h
  · next hdry =>
    obtain ⟨rfl, -, rfl⟩ := Execution.done_iff.mp h
    exact .inl ⟨rfl, fun _ ↦ hdry⟩
  next hdry =>
  split at h
  · obtain ⟨rfl, -, rfl⟩ := Execution.raise_iff.mp h
    exact .inl ⟨rfl, by simp⟩
  obtain ⟨raised, rfl, htoken⟩ | ⟨first, token, middle, rest, rfl, htoken, hnext⟩ := Execution.bind_iff.mp h
  · obtain ⟨-, rfl, -, -⟩ | ⟨hsecure, reply, rfl, -⟩ := getJwtToken_spec htoken
    · exact .inl ⟨rfl, by simp⟩
    · exact .inr ⟨by simpa using hdry, hsecure, reply, last, [], rfl, .inl ⟨rfl, by simp⟩⟩
  obtain ⟨-, -, -, herror⟩ | ⟨hsecure, reply, rfl, hreply⟩ := getJwtToken_spec htoken
  · cases herror
  refine .inr ⟨by simpa using hdry, hsecure, reply, middle, rest, rfl, ?_⟩
  obtain ⟨raised, rfl, hupload⟩ | ⟨third, uploaded, between, fourth, rfl, hupload, hend⟩ := Execution.bind_iff.mp hnext
  · obtain ⟨rfl, -⟩ | ⟨published, sent, hsound, hcontract, rfl, hsent⟩ := uploadTestCatalog_spec hdigest hupload
    · exact .inl ⟨rfl, by simp⟩
    · refine .inr ⟨token, published, sent, hreply.symm, hsound, hcontract, rfl, iff_of_false (by simp) ?_⟩
      rintro ⟨answer, rfl⟩
      cases hsent
  · obtain ⟨rfl, hrefused⟩ | ⟨published, sent, hsound, hcontract, rfl, hsent⟩ := uploadTestCatalog_spec hdigest hupload
    · cases uploaded with
      | true => exact absurd rfl hrefused
      | false =>
        obtain ⟨rfl, -, rfl⟩ := Execution.raise_iff.mp hend
        exact .inl ⟨rfl, by simp⟩
    · cases uploaded with
      | true =>
        obtain ⟨rfl, rfl, rfl⟩ := Execution.done_iff.mp hend
        exact .inr ⟨token, published, sent, hreply.symm, hsound, hcontract, rfl, iff_of_true rfl (uploadedOf_true hsent.symm)⟩
      | false =>
        obtain ⟨rfl, rfl, rfl⟩ := Execution.raise_iff.mp hend
        refine .inr ⟨token, published, sent, hreply.symm, hsound, hcontract, rfl, iff_of_false (by simp) ?_⟩
        rintro ⟨answer, rfl⟩
        cases hsent

/-- An upload in a trace, with its answer. -/
def Uploads (trace : List (Exchange World Reply)) (published : Published) (sent : Except Failure Json) : Prop :=
  ∃ before endpoint token after, (⟨before, .uploadCatalog endpoint token published, sent, after⟩ :
    Exchange World Reply) ∈ trace

/-- The parts of a push: there is an artifact, or not; then nothing more is asked for, or a token, and perhaps one
upload. -/
theorem push_spec {outcome : Except Raised Unit}
    (h : Execution step world (push publisher environment options) trace last outcome) :
    ∃ first rest, trace = first ++ rest ∧
      (∀ exchange ∈ first, exchange.op.Publishes publisher options.dryRun ∧ exchange.op.isUpload = false) ∧
      ((rest = [] ∧ (outcome = .ok () → options.dryRun = true)) ∨
        (options.dryRun = false ∧ isSecureUrl publisher.machine environment.ssaIssuer = true ∧
          ∃ start reply middle later, rest = ⟨start, .token environment.ssaIssuer environment.clientId
              environment.clientSecret, reply, middle⟩ :: later ∧
            ((later = [] ∧ outcome ≠ .ok ()) ∨ ∃ (token : String) (published : Published) (sent : Except Failure Json),
              tokenOf reply = .ok token ∧ published.Sound publisher ∧
                later = [⟨middle, .uploadCatalog environment.endpoint token published, sent, last⟩] ∧
                (outcome = .ok () ↔ ∃ answer, sent = .ok answer)))) := by
  obtain ⟨raised, rfl, hartifact⟩ | ⟨first, artifact, middle, rest, rfl, hartifact, hpush⟩ := Execution.bind_iff.mp h
  · exact ⟨trace, [], (List.append_nil trace).symm, loadArtifact_calls.mem_trace hartifact, .inl ⟨rfl, by simp⟩⟩
  · obtain ⟨version, digest, reference, document⟩ := artifact
    refine ⟨first, rest, rfl, loadArtifact_calls.mem_trace hartifact, ?_⟩
    obtain hdone | ⟨hdry, hsecure, reply, between, later, hrest, hlater⟩ :=
      pushArtifact_spec (artifact_digest hartifact) hpush
    · exact .inl hdone
    · refine .inr ⟨hdry, hsecure, middle, reply, between, later, hrest, hlater.imp_right ?_⟩
      rintro ⟨token, published, sent, htoken, hsound, -, hlater, hok⟩
      exact ⟨token, published, sent, htoken, hsound, hlater, hok⟩

theorem push_sound {outcome : Except Raised Unit}
    (h : Execution step world (push publisher environment options) trace last outcome) :
    ∀ exchange ∈ trace, exchange.op.Publishes publisher options.dryRun := by
  obtain ⟨first, rest, rfl, hfirst, ⟨rfl, -⟩ | ⟨hdry, hsecure, start, reply, middle, later, rfl, ⟨rfl, -⟩ |
    ⟨token, published, sent, -, hsound, rfl, -⟩⟩⟩ := push_spec h
  · rw [List.append_nil]
    exact fun exchange hmem ↦ (hfirst exchange hmem).1
  · rw [List.forall_mem_append]
    exact ⟨fun exchange hmem ↦ (hfirst exchange hmem).1, List.forall_mem_singleton.mpr ⟨hsecure, hdry⟩⟩
  · rw [List.forall_mem_append, List.forall_mem_cons, List.forall_mem_singleton]
    exact ⟨fun exchange hmem ↦ (hfirst exchange hmem).1, ⟨hsecure, hdry⟩, hsound, hdry⟩

/-- What the service does with catalogs: one which it takes has its version from then on, so that another identity of
that version is refused. -/
structure Freezes (step : World → (call : Call) → Reply call → World → Prop)
    (stored : World → String → Option (String × String)) : Prop where
  accepted : ∀ {before after endpoint token published answer},
    step before (.uploadCatalog endpoint token published) (.ok answer) after →
      stored after published.isvTestVersion = some (published.catalogDigest, published.isvTestBuildRef)
  kept : ∀ {before after call reply version identity}, step before call reply after →
    stored before version = some identity → stored after version = some identity

/-- Somebody asks the service for something. -/
def Moves (step : World → (call : Call) → Reply call → World → Prop) (before after : World) : Prop :=
  ∃ call reply, step before call reply after

/-- Two catalogs which were published for one version, by pushes of anybody, at any time, and of whatever artifacts,
have the same source and publish the same contract, unless the hash has a collision. -/
theorem published_frozen {stored : World → String → Option (String × String)} (hfreezes : Freezes step stored)
    {publisher' : Publisher} {environment' : Environment} {options' : PushOptions}
    (hsame : publisher'.sha256 = publisher.sha256) {middle later : World} {first second : List (Exchange World Reply)}
    {outcome outcome' : Except Raised Unit}
    (hfirst : Execution step world (push publisher environment options) first middle outcome)
    (hmoves : Relation.ReflTransGen (Moves step) middle later)
    (hsecond : Execution step later (push publisher' environment' options') second last outcome')
    {published published' : Published} {answer answer' : Json} (huploads : Uploads first published (.ok answer))
    (huploads' : Uploads second published' (.ok answer'))
    (hversion : published'.isvTestVersion = published.isvTestVersion) :
    published'.isvTestBuildRef = published.isvTestBuildRef ∧
      (published'.document.contract none = published.document.contract none ∨
        catalogPayload published'.document ≠ catalogPayload published.document ∧
          publisher.sha256 (catalogPayload published'.document) =
            publisher.sha256 (catalogPayload published.document)) := by
  obtain ⟨before, endpoint, token, after, hmem⟩ := huploads
  obtain ⟨before', endpoint', token', after', hmem'⟩ := huploads'
  obtain ⟨hsound, -⟩ : published.Sound publisher ∧ options.dryRun = false := push_sound hfirst _ hmem
  obtain ⟨hsound', -⟩ : published'.Sound publisher' ∧ options'.dryRun = false := push_sound hsecond _ hmem'
  -- The identity which the first push has set stands from then on, and the second push finds it.
  have hset := hfreezes.accepted (hfirst.step_of_mem _ hmem)
  have hmiddle : stored middle published.isvTestVersion =
      some (published.catalogDigest, published.isvTestBuildRef) :=
    hfirst.persists_from (P := fun world ↦ stored world published.isvTestVersion =
      some (published.catalogDigest, published.isvTestBuildRef))
      (fun exchange hexchange ↦ hfreezes.kept (hfirst.step_of_mem exchange hexchange)) hmem hset
  have hlater : stored later published.isvTestVersion =
      some (published.catalogDigest, published.isvTestBuildRef) := by
    refine holds_later (P := fun world ↦ stored world published.isvTestVersion =
      some (published.catalogDigest, published.isvTestBuildRef)) (fun before after hstep ↦ ?_) hmoves hmiddle
    obtain ⟨call, reply, hmade⟩ := hstep
    exact hfreezes.kept hmade
  have hfound : stored after' published.isvTestVersion =
      some (published.catalogDigest, published.isvTestBuildRef) :=
    hsecond.always (P := fun world ↦ stored world published.isvTestVersion =
      some (published.catalogDigest, published.isvTestBuildRef))
      (fun exchange hexchange ↦ hfreezes.kept (hsecond.step_of_mem exchange hexchange)) hlater _ hmem'
  have hset' := hfreezes.accepted (hsecond.step_of_mem _ hmem')
  rw [hversion, hfound, Option.some.injEq, Prod.mk.injEq] at hset'
  obtain ⟨hdigest, hreference⟩ := hset'
  refine ⟨hreference.symm, ?_⟩
  rw [hsound.digest, hsound'.digest, hsame] at hdigest
  by_cases hcontract : published'.document.contract none = published.document.contract none
  · exact .inl hcontract
  · exact .inr (collision_of_catalogDigest_eq hdigest.symm hcontract)

section Service

/-- The identities of the versions which the service has. -/
abbrev Shelf : Type := String → Option (String × String)

/-- A service which takes one identity for a version. -/
def take (before : Shelf) (published : Published) : Except Failure Json × Shelf :=
  let identity := (published.catalogDigest, published.isvTestBuildRef)
  match before published.isvTestVersion with
  | none => (.ok .null, Function.update before published.isvTestVersion (some identity))
  | some found => if found = identity then (.ok .null, before) else (.error (.http 409), before)

/-- The document of a release, with its entries in one order or the other. -/
def siteDocument (turned : Bool) : CatalogDocument :=
  let entries : List CatalogEntry := [{ name := .value "GpuCheck" }, { name := .value "NodeCheck" }]
  { entries := some (if turned then entries.reverse else entries) }

/-- A checkout of a release. Once the version is published, its checks are found in the other order. -/
def shelve (before : Shelf) : (call : Call) → Reply call × Shelf
  | .uploadCatalog _ _ published => take before published
  | .token _ _ _ => (.ok (.obj [("access_token", .str "t")]), before)
  | .buildDocument => (.ok ("1.0.0", some "v1.0.0-0-gabc", siteDocument (before "1.0.0").isSome), before)
  | .saveDocument _ => (.ok (), before)
  | _ => (.error .os, before)

theorem take_cases (before : Shelf) (published : Published) :
    (∃ failure, take before published = (.error failure, before)) ∨
      (take before published = (.ok .null, before) ∧
        before published.isvTestVersion = some (published.catalogDigest, published.isvTestBuildRef)) ∨
      (before published.isvTestVersion = none ∧ take before published = (.ok .null,
        Function.update before published.isvTestVersion (some (published.catalogDigest, published.isvTestBuildRef)))) := by
  unfold take
  dsimp only
  split
  · next hnone => exact .inr (.inr ⟨hnone, rfl⟩)
  · next found hfound =>
    split_ifs with hsame
    · exact .inr (.inl ⟨rfl, by rw [hfound, hsame]⟩)
    · exact .inl ⟨_, rfl⟩

theorem freezes_shelve : Freezes (fun before call reply after ↦ shelve before call = (reply, after)) id where
  accepted := by
    intro before after endpoint token published answer h
    have htake : take before published = (.ok answer, after) := h
    obtain ⟨failure, hcase⟩ | ⟨hcase, hfound⟩ | ⟨-, hcase⟩ := take_cases before published
    · rw [hcase] at htake
      cases htake
    · rw [hcase] at htake
      cases htake
      exact hfound
    · rw [hcase] at htake
      cases htake
      exact Function.update_self ..
  kept := by
    intro before after call reply version identity h hversion
    cases call with
    | uploadCatalog endpoint token published =>
      have htake : take before published = (reply, after) := h
      obtain ⟨failure, hcase⟩ | ⟨hcase, -⟩ | ⟨hnone, hcase⟩ := take_cases before published
      · rw [hcase] at htake
        cases htake
        exact hversion
      · rw [hcase] at htake
        cases htake
        exact hversion
      · rw [hcase] at htake
        cases htake
        refine (Function.update_of_ne ?_ _ _).trans hversion
        rintro rfl
        rw [id, hnone] at hversion
        cases hversion
    | _ =>
      cases h
      exact hversion

def sitePublisher : Publisher where
  machine := plainMachine
  data := UnicodeData.ascii
  sha256 _ := "5e1f"

theorem siteRelease : buildIsRelease UnicodeData.ascii "1.0.0" (some "v1.0.0-0-gabc") = some true := by
  have hparsed : parseBuildRef UnicodeData.ascii (some "v1.0.0-0-gabc") = some ⟨"1.0.0", 0, "abc", false⟩ :=
    parseBuildRef_iff.mpr ⟨['0'], by simp [maxDigits], by decide,
      ⟨by decide, by decide, by decide, by decide, by decide, by decide, by decide⟩⟩
  rw [buildIsRelease, hparsed]
  decide

def sitePush : Run Unit := push sitePublisher siteEnvironment {}

def sitePublished (turned : Bool) : Published where
  isvTestVersion := "1.0.0"
  catalogDigest := "sha256:5e1f"
  isvTestBuildRef := "v1.0.0-0-gabc"
  document := (payloadDocument (siteDocument turned)).getD {}

def siteArtifact (turned : Bool) : Identified := ("1.0.0", "sha256:5e1f", some "v1.0.0-0-gabc", siteDocument turned)

/-- The push, once the catalog is known to be that of a release. -/
theorem pushArtifact_site (turned : Bool) : pushArtifact sitePublisher siteEnvironment {} (siteArtifact turned) = (do
    let token ← getJwtToken plainMachine siteEnvironment
    let uploaded ← uploadTestCatalog sitePublisher siteEnvironment token "1.0.0" "sha256:5e1f" (some "v1.0.0-0-gabc")
      (siteDocument turned)
    if !uploaded then .raise (.exit 1) : Run Unit) := by
  have hrelease : ¬ buildIsRelease sitePublisher.data "1.0.0" (some "v1.0.0-0-gabc") ≠ some true :=
    not_not.mpr siteRelease
  unfold pushArtifact siteArtifact
  dsimp only
  rw [if_neg hrelease]
  rfl

theorem uploadTestCatalog_site (token : String) (turned : Bool) : uploadTestCatalog sitePublisher siteEnvironment token
    "1.0.0" "sha256:5e1f" (some "v1.0.0-0-gabc") (siteDocument turned) = (do
      let uploaded ← (invoke (Call.uploadCatalog "https://service" token (sitePublished turned))).attempt
      .ofExcept (uploadedOf uploaded) : Run Bool) := by
  have hrelease : ¬ buildIsRelease sitePublisher.data "1.0.0" (some "v1.0.0-0-gabc") ≠ some true :=
    not_not.mpr siteRelease
  unfold uploadTestCatalog
  rw [if_neg hrelease]
  cases turned <;> rfl

theorem sitePush_shelve {before after : Shelf} {turned : Bool} (hturned : (before "1.0.0").isSome = turned)
    (htake : take before (sitePublished turned) = (.ok .null, after)) :
    ∃ trace, Execution (fun before call reply after ↦ shelve before call = (reply, after)) before sitePush trace after
      (.ok ()) ∧ Uploads trace (sitePublished turned) (.ok .null) := by
  subst hturned
  have hload : Execution (fun before call reply after ↦ shelve before call = (reply, after)) before
      (loadArtifact sitePublisher {}) [⟨before, .buildDocument, .ok ("1.0.0", some "v1.0.0-0-gabc",
        siteDocument (before "1.0.0").isSome), before⟩,
        ⟨before, .saveDocument (siteDocument (before "1.0.0").isSome), .ok (), before⟩] before
      (.ok (siteArtifact (before "1.0.0").isSome)) := .call rfl (.call rfl (.done _ _))
  have hpush : Execution (fun before call reply after ↦ shelve before call = (reply, after)) before
      (pushArtifact sitePublisher siteEnvironment {} (siteArtifact (before "1.0.0").isSome))
      [⟨before, .token "https://issuer" "id" "secret", .ok (.obj [("access_token", .str "t")]), before⟩,
        ⟨before, .uploadCatalog "https://service" "t" (sitePublished (before "1.0.0").isSome), .ok .null, after⟩] after
      (.ok ()) := by
    simp only [pushArtifact_site, uploadTestCatalog_site]
    exact .call rfl (.call htake (.done _ _))
  exact ⟨_, Execution.bind_iff.mpr (.inr ⟨_, _, _, _, rfl, hload, hpush⟩), before, "https://service", "t", after,
    by simp⟩

/-- What the service keeps of the one release. -/
def siteShelf : Shelf := Function.update (fun _ ↦ none) "1.0.0" (some ("sha256:5e1f", "v1.0.0-0-gabc"))

/-- A second push, with the entries in another order, is taken, and publishes the same contract. -/
theorem published_frozen_site : ∃ (middle : Shelf) (first second : List (Exchange Shelf Reply)),
    Execution (fun before call reply after ↦ shelve before call = (reply, after)) (fun _ ↦ none) sitePush first middle
        (.ok ()) ∧
      Execution (fun before call reply after ↦ shelve before call = (reply, after)) middle sitePush second middle
        (.ok ()) ∧
      ((sitePublished true).document.contract none = (sitePublished false).document.contract none ∨
        catalogPayload (sitePublished true).document ≠ catalogPayload (sitePublished false).document ∧
          sitePublisher.sha256 (catalogPayload (sitePublished true).document) =
            sitePublisher.sha256 (catalogPayload (sitePublished false).document)) := by
  have htake : take (fun _ ↦ none) (sitePublished false) = (.ok .null, siteShelf) := rfl
  have hagain : take siteShelf (sitePublished true) = (.ok .null, siteShelf) := rfl
  obtain ⟨first, hfirst, huploads⟩ := sitePush_shelve rfl htake
  obtain ⟨second, hsecond, huploads'⟩ := sitePush_shelve rfl hagain
  exact ⟨_, first, second, hfirst, hsecond,
    (published_frozen freezes_shelve rfl hfirst .refl hsecond huploads huploads' rfl).2⟩

end Service

end IsvValidation.Reporting
