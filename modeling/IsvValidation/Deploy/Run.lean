import IsvValidation.Config.Value
import IsvValidation.Deploy.RemoteScript

/-!
# What a deploy reports

`deploy run`: the steps before the remote script, the script, the three downloads, and the call of
`update_test_run`. The artifacts have the same names in every deploy, on the target and in the local
output directory.
-/

namespace IsvValidation.Deploy

open Config

/-! ## Inputs -/

/-- Options and environment of the command. -/
structure DeploySettings where
  remoteDir : Path
  noUpload : Bool := false
  labId : Option ℕ
  canUpload : Bool
  endpoint : Option String
  ssaIssuer : Option String
  isvSoftwareVersion : Option String := none
  cleanup : Bool := false

/-- The outcomes of the steps before the script; `testRunId` is what `create_test_run` returns. -/
structure Preparation where
  archiveCreated : Bool
  connected : Bool
  directoryEnsured : Bool
  uvInstalled : Bool
  archiveUploaded : Bool
  testRunId : Option String

/-- How a download ends: complete, broken off after some characters, without touching the local file,
or with another error than that of scp. -/
inductive CopyOutcome where
  | copied
  | cut (characters : ℕ)
  | failed
  | raised
  deriving DecidableEq

/-- What `json.loads` makes of the downloaded catalog; an `OSError` and a `JSONDecodeError` are
caught. -/
inductive CatalogRead where
  | document (json : Json)
  | unreadable
  | raised

structure DownloadOutcomes where
  log : CopyOutcome
  junit : CopyOutcome
  catalog : CopyOutcome
  catalogRead : CatalogRead

/-- The artifacts of earlier deploys in the local output directory. -/
structure LocalFiles where
  log : Option String
  junit : Option String
  catalog : Option String

structure DeployInput where
  settings : DeploySettings
  preparation : Preparation
  target : Target
  script : ScriptOutcome
  ssh : SshOutcome
  downloads : DownloadOutcomes
  localFiles : LocalFiles

/-! ## The run -/

/-- The arguments of `update_test_run`; a catalog document comes with the file it was read from. -/
structure UpdateCall where
  labId : ℕ
  testRunId : String
  success : Bool
  logFile : Option Artifact
  junitXml : Option Artifact
  isvSoftwareVersion : Option String
  catalogDocument : Option (Json × Artifact)

structure LocalArtifacts where
  log : Option Artifact
  junit : Option Artifact
  catalog : Option Artifact

/-- What a deploy has done: its call of `update_test_run`, the files it removed on the target, the exit
status of the remote test run, its own exit code, and the local artifacts afterwards. -/
structure DeployResult where
  update : Option UpdateCall := none
  removed : Path → Bool := fun _ ↦ false
  testExit : Option ℕ := none
  exitCode : ℕ := 1
  artifacts : LocalArtifacts

/-- A text which is there and not empty. -/
def truthy (text : Option String) : Bool := text.any (· ≠ "")

/-- Whether results are uploaded, before the test run is created. -/
def uploadResults (settings : DeploySettings) : Bool :=
  !settings.noUpload && settings.labId.any (· ≠ 0) && settings.canUpload &&
    truthy settings.endpoint && truthy settings.ssaIssuer

def Preparation.ready (preparation : Preparation) : Bool :=
  preparation.archiveCreated && preparation.connected && preparation.directoryEnsured &&
    preparation.uvInstalled && preparation.archiveUploaded

/-- The lab and the test run which are reported to, if results are uploaded. -/
def reportTo (settings : DeploySettings) (preparation : Preparation) : Option (ℕ × String) :=
  if uploadResults settings then
    match settings.labId, preparation.testRunId.filter (· ≠ "") with
    | some labId, some testRunId => some (labId, testRunId)
    | _, _ => none
  else none

def remoteLog : Path := ["pytest-output.log"]

def remoteJunit : Path := ["junit-validation.xml"]

def remoteCatalog : Path := ["_output", "test_catalog.json"]

/-- `download_optional`: whether it succeeded, and the local file afterwards; `none` stands for an
error which is not caught. -/
def downloadOptional (copy : CopyOutcome) (remote : Option Artifact) (file : Option Artifact) :
    Option (Bool × Option Artifact) :=
  match copy, remote with
  | .copied, some artifact => some (true, some artifact)
  | .cut characters, some artifact =>
    some (false, some { artifact with text := .ofList (artifact.text.toList.take characters) })
  | .copied, none => some (false, file)
  | .cut _, none => some (false, file)
  | .failed, _ => some (false, file)
  | .raised, _ => none

/-- The document in the downloaded catalog; the outer `none` stands for an error which is not
caught. -/
def readCatalog (read : CatalogRead) (downloaded : Bool) (file : Option Artifact) :
    Option (Option (Json × Artifact)) :=
  if downloaded then
    match read, file with
    | .document .null, _ => some none
    | .document json, some artifact => some (some (json, artifact))
    | .document _, none => some none
    | .unreadable, _ => some none
    | .raised, _ => none
  else some none

namespace DeployInput

variable (input : DeployInput)

/-- The exit code of the remote script, and the target afterwards. -/
def session : Int × Shell :=
  execute input.target input.settings.remoteDir input.script input.ssh

/-- Where an artifact is downloaded from. -/
def place (file : Path) : Path := input.target.real (input.settings.remoteDir ++ file)

/-- What is found there after the script. -/
def remote (file : Path) : Option Artifact := input.session.2.files (input.place file)

/-- What stands in the local output directory before the downloads. -/
def before : LocalArtifacts :=
  let earlier (file : Option String) : Option Artifact := file.map fun text ↦ ⟨text, false⟩
  ⟨earlier input.localFiles.log, earlier input.localFiles.junit, earlier input.localFiles.catalog⟩

end DeployInput

/-- `run`, from the archive on. -/
def deployRun (input : DeployInput) : DeployResult :=
  let before := input.before
  if !input.preparation.ready then { artifacts := before }
  else
    let stopped (artifacts : LocalArtifacts) : DeployResult :=
      { removed := input.session.2.removed, testExit := input.session.2.testExit, artifacts }
    match downloadOptional input.downloads.log (input.remote remoteLog) before.log with
    | none => stopped before
    | some (_, log) =>
    match downloadOptional input.downloads.junit (input.remote remoteJunit) before.junit with
    | none => stopped { before with log }
    | some (hasJunit, junit) =>
    match downloadOptional input.downloads.catalog (input.remote remoteCatalog)
        before.catalog with
    | none => stopped { before with log, junit }
    | some (hasCatalog, catalog) =>
    match readCatalog input.downloads.catalogRead hasCatalog catalog with
    | none => stopped ⟨log, junit, catalog⟩
    | some document =>
      let kept (downloaded : Bool) (file : Option Artifact) :=
        if input.settings.cleanup && downloaded then none else file
      { stopped ⟨kept true log, kept hasJunit junit, kept hasCatalog catalog⟩ with
        update := (reportTo input.settings input.preparation).map fun (labId, testRunId) ↦
          { labId, testRunId
            success := input.session.1 = 0
            logFile := log
            junitXml := if hasJunit then junit else none
            isvSoftwareVersion := input.settings.isvSoftwareVersion
            catalogDocument := document }
        exitCode := if input.session.1 = 0 then 0 else 1 }

/-! ## Reports of the own run -/

/-- A deploy only reports its own run, and removes nothing outside the remote directory. -/
structure ReportsOwnRun (input : DeployInput) (result : DeployResult) : Prop where
  inside : ∀ file, result.removed file = true →
    input.target.real input.settings.remoteDir <+: file
  log : ∀ call, result.update = some call → ∀ artifact, call.logFile = some artifact →
    artifact.own = true
  junit : ∀ call, result.update = some call → ∀ artifact, call.junitXml = some artifact →
    artifact.own = true
  catalog : ∀ call, result.update = some call → ∀ json artifact,
    call.catalogDocument = some (json, artifact) → artifact.own = true
  success : ∀ call, result.update = some call → call.success = true → result.testExit = some 0

namespace DeployInput

variable (input : DeployInput)

def Removes (file : Path) : Prop :=
  Taken input.target input.settings.remoteDir input.script input.ssh file

/-- The script writes an artifact to where it is downloaded from. -/
def WritesArtifact (file : Path) : Prop :=
  Written input.target input.settings.remoteDir input.script input.ssh (input.place file)

/-- An artifact of an earlier deploy, which the script does not take away. -/
def HadArtifact (file : Path) : Prop :=
  input.target.files (input.place file) ≠ none ∧ ¬ input.Removes (input.place file)

/-- Everything which the script removes is in the remote directory. -/
def StaysInside : Prop :=
  input.preparation.ready = true → ∀ file, input.Removes file →
    input.target.real input.settings.remoteDir <+: file

/-- `update_test_run` is called. -/
structure Reports : Prop where
  ready : input.preparation.ready = true
  reportTo : reportTo input.settings input.preparation ≠ none
  log : input.downloads.log ≠ .raised
  junit : input.downloads.junit ≠ .raised
  catalog : input.downloads.catalog ≠ .raised
  read : input.downloads.catalog = .copied →
    input.WritesArtifact remoteCatalog ∨ input.HadArtifact remoteCatalog →
    input.downloads.catalogRead ≠ .raised

/-- A copy of the log arrives, whole or in part. -/
def LogArrives : Prop :=
  (input.downloads.log = .copied ∨ ∃ characters, input.downloads.log = .cut characters) ∧
    (input.WritesArtifact remoteLog ∨ input.HadArtifact remoteLog)

/-- No artifact of an earlier deploy takes the place of one which this run has not written. -/
structure FreshArtifacts : Prop where
  log : input.LogArrives → input.WritesArtifact remoteLog
  localLog : ¬ input.LogArrives → input.localFiles.log = none
  junit : input.downloads.junit = .copied → input.HadArtifact remoteJunit →
    input.WritesArtifact remoteJunit
  catalog : input.downloads.catalog = .copied → input.HadArtifact remoteCatalog →
    (∃ json, input.downloads.catalogRead = .document json ∧ json ≠ .null) →
    input.WritesArtifact remoteCatalog

end DeployInput

/-! ## Downloads -/

section Downloads

variable {copy : CopyOutcome} {remote file result : Option Artifact} {downloaded : Bool}

theorem downloadOptional_eq_none : downloadOptional copy remote file = none ↔ copy = .raised := by
  cases copy <;> cases remote <;> simp [downloadOptional]

theorem downloaded_iff (h : downloadOptional copy remote file = some (downloaded, result)) :
    downloaded = true ↔ copy = .copied ∧ remote ≠ none := by
  cases copy <;> cases remote <;> simp [downloadOptional] at h ⊢ <;> simp [← h.1]

theorem result_of_downloaded (h : downloadOptional copy remote file = some (downloaded, result))
    (hdownloaded : downloaded = true) : result = remote := by
  have hcopied := (downloaded_iff h).mp hdownloaded
  cases remote with
  | none => exact absurd rfl hcopied.2
  | some artifact =>
    rw [hcopied.1] at h
    simp only [downloadOptional, Option.some.injEq, Prod.mk.injEq] at h
    exact h.2.symm

/-- What stands in the local directory after a download: what arrived, or what was there. -/
theorem own_of_download {text : Option String}
    (h : downloadOptional copy remote (text.map fun text ↦ ⟨text, false⟩) =
      some (downloaded, result)) :
    (∀ artifact, result = some artifact → artifact.own = true) ↔
      ((copy = .copied ∨ ∃ characters, copy = .cut characters) ∧ remote ≠ none →
        ∀ artifact, remote = some artifact → artifact.own = true) ∧
      (¬ ((copy = .copied ∨ ∃ characters, copy = .cut characters) ∧ remote ≠ none) →
        text = none) := by
  cases copy <;> cases remote <;> cases text <;> simp [downloadOptional] at h ⊢ <;>
    simp [← h.2]

end Downloads

theorem readCatalog_eq_none {read : CatalogRead} {downloaded : Bool} {file : Option Artifact} :
    readCatalog read downloaded file = none ↔ downloaded = true ∧ read = .raised := by
  cases downloaded with
  | false => simp [readCatalog]
  | true =>
    simp only [readCatalog, if_true, true_and]
    split <;> simp_all

theorem readCatalog_eq_document {read : CatalogRead} {downloaded : Bool} {file : Option Artifact}
    {json : Json} {artifact : Artifact} :
    readCatalog read downloaded file = some (some (json, artifact)) ↔
      downloaded = true ∧ read = .document json ∧ json ≠ .null ∧ file = some artifact := by
  cases downloaded with
  | false => simp [readCatalog]
  | true =>
    simp only [readCatalog, if_true, true_and]
    split <;> simp_all
    grind

section Remote

variable (input : DeployInput)

theorem remote_ne_none (file : Path) :
    input.remote file ≠ none ↔ input.WritesArtifact file ∨ input.HadArtifact file :=
  execute_present (input.place file)

theorem remote_own (file : Path) :
    (∀ artifact, input.remote file = some artifact → artifact.own = true) ↔
      (input.HadArtifact file → input.WritesArtifact file) := by
  have hleftover : (∃ text, input.remote file = some ⟨text, false⟩) ↔
      input.HadArtifact file ∧ ¬ input.WritesArtifact file := by
    rw [DeployInput.HadArtifact, and_assoc]
    exact execute_leftover (input.place file)
  constructor
  · intro hown hhad
    by_contra hwrites
    have ⟨text, htext⟩ := hleftover.mpr ⟨hhad, hwrites⟩
    cases hown _ htext
  · intro hfresh artifact hartifact
    by_contra hown
    have heq : artifact = ⟨artifact.text, false⟩ := by
      cases artifact
      simpa using hown
    have ⟨hhad, hwrites⟩ := hleftover.mp ⟨artifact.text, heq ▸ hartifact⟩
    exact hwrites (hfresh hhad)

end Remote

/-! ## The whole deploy -/

section Deploy

variable {input : DeployInput}

/-- The arguments which the artifacts come from, in a deploy which reports. -/
structure Reported (input : DeployInput) (call : UpdateCall) : Prop where
  log : (∀ artifact, call.logFile = some artifact → artifact.own = true) ↔
    (input.LogArrives → ∀ artifact, input.remote remoteLog = some artifact → artifact.own = true) ∧
      (¬ input.LogArrives → input.localFiles.log = none)
  junit : call.junitXml = if input.downloads.junit = .copied then input.remote remoteJunit else none
  catalog : ∀ json artifact, call.catalogDocument = some (json, artifact) ↔
    input.downloads.catalog = .copied ∧ input.downloads.catalogRead = .document json ∧
      json ≠ .null ∧ input.remote remoteCatalog = some artifact
  success : call.success = true ↔ input.session.1 = 0

theorem logArrives_iff :
    ((input.downloads.log = .copied ∨ ∃ characters, input.downloads.log = .cut characters) ∧
      input.remote remoteLog ≠ none) ↔ input.LogArrives := by
  rw [remote_ne_none]
  rfl

/-- A download which raises nothing else than an error of scp. -/
theorem exists_download {copy : CopyOutcome} (h : copy ≠ .raised) (remote file : Option Artifact) :
    ∃ downloaded result, downloadOptional copy remote file = some (downloaded, result) := by
  have ⟨(downloaded, result), heq⟩ :=
    Option.ne_none_iff_exists'.mp (mt (@downloadOptional_eq_none copy remote file).mp h)
  exact ⟨downloaded, result, heq⟩

theorem deployRun_reports (h : input.Reports) :
    ∃ call, (deployRun input).update = some call ∧ Reported input call ∧
      (deployRun input).testExit = input.session.2.testExit := by
  have ⟨(labId, testRunId), hreport⟩ := Option.ne_none_iff_exists'.mp h.reportTo
  have ⟨hasLog, log, hlog⟩ := exists_download h.log (input.remote remoteLog) input.before.log
  have ⟨hasJunit, junit, hjunit⟩ :=
    exists_download h.junit (input.remote remoteJunit) input.before.junit
  have ⟨hasCatalog, catalog, hcatalog⟩ :=
    exists_download h.catalog (input.remote remoteCatalog) input.before.catalog
  have hread : readCatalog input.downloads.catalogRead hasCatalog catalog ≠ none := by
    intro hnone
    have ⟨hdownloaded, hraised⟩ := readCatalog_eq_none.mp hnone
    have ⟨hcopied, hremote⟩ := (downloaded_iff hcatalog).mp hdownloaded
    exact h.read hcopied ((remote_ne_none input remoteCatalog).mp hremote) hraised
  have ⟨document, hdocument⟩ := Option.ne_none_iff_exists'.mp hread
  have hready : (!input.preparation.ready) = false := by rw [h.ready, Bool.not_true]
  refine ⟨⟨labId, testRunId, input.session.1 = 0, log, if hasJunit then junit else none,
    input.settings.isvSoftwareVersion, document⟩, ?_, ?_, ?_⟩
  · simp [deployRun, hready, hlog, hjunit, hcatalog, hdocument, hreport]
  · constructor
    · rw [← logArrives_iff]
      exact own_of_download hlog
    · change (if hasJunit = true then junit else none) = _
      by_cases hdownloaded : hasJunit = true
      · have hcopied := ((downloaded_iff hjunit).mp hdownloaded).1
        rw [if_pos hdownloaded, if_pos hcopied, result_of_downloaded hjunit hdownloaded]
      · have hnone : input.downloads.junit = .copied → input.remote remoteJunit = none := by
          intro hcopied
          by_contra hremote
          exact hdownloaded ((downloaded_iff hjunit).mpr ⟨hcopied, hremote⟩)
        rw [if_neg hdownloaded]
        split
        · next hcopied => rw [hnone hcopied]
        · rfl
    · intro json artifact
      change document = some (json, artifact) ↔ _
      rw [← Option.some.injEq, ← hdocument, readCatalog_eq_document, downloaded_iff hcatalog]
      constructor
      · intro ⟨hcopied, hdoc, hnull, hresult⟩
        have hdownloaded := (downloaded_iff hcatalog).mpr hcopied
        rw [result_of_downloaded hcatalog hdownloaded] at hresult
        exact ⟨hcopied.1, hdoc, hnull, hresult⟩
      · intro ⟨hcopied, hdoc, hnull, hremote⟩
        have hpresent : input.remote remoteCatalog ≠ none := by simp [hremote]
        have hdownloaded := (downloaded_iff hcatalog).mpr ⟨hcopied, hpresent⟩
        refine ⟨⟨hcopied, hpresent⟩, hdoc, hnull, ?_⟩
        rw [result_of_downloaded hcatalog hdownloaded, hremote]
    · simp
  · simp [deployRun, hready, hlog, hjunit, hcatalog, hdocument]

/-- Where `update_test_run` is called, the deploy got that far. -/
theorem reports_of_update {call : UpdateCall} (h : (deployRun input).update = some call) :
    input.Reports := by
  unfold deployRun at h
  simp only at h
  split at h
  · cases h
  · next hready =>
    split at h
    · cases h
    · next hasLog log hlog =>
      split at h
      · cases h
      · next hasJunit junit hjunit =>
        split at h
        · cases h
        · next hasCatalog catalog hcatalog =>
          split at h
          · cases h
          · next document hdocument =>
            have hne {copy : CopyOutcome} {remote file : Option Artifact} {downloaded : Bool}
                {result : Option Artifact}
                (h : downloadOptional copy remote file = some (downloaded, result)) :
                copy ≠ .raised := fun hraised ↦ by
              rw [downloadOptional_eq_none.mpr hraised] at h
              cases h
            refine ⟨by simpa using hready, ?_, hne hlog, hne hjunit, hne hcatalog, ?_⟩
            · intro hnone
              simp [hnone] at h
            · intro hcopied hpresent hraised
              have hdownloaded := (downloaded_iff hcatalog).mpr
                ⟨hcopied, (remote_ne_none input remoteCatalog).mpr hpresent⟩
              rw [readCatalog_eq_none.mpr ⟨hdownloaded, hraised⟩] at hdocument
              cases hdocument

theorem prefix_of_taken {outcome : ScriptOutcome} {real : Path → Path} {path file : Path}
    (h : outcome.taken real path file = true) : real path <+: file := by
  unfold ScriptOutcome.taken RmOutcome.takes at h
  grind [List.isPrefixOf_iff_prefix]

theorem deployRun_removed (file : Path) :
    (deployRun input).removed file = true ↔
      input.preparation.ready = true ∧ input.Removes file := by
  cases hready : input.preparation.ready with
  | false => simp [deployRun, hready]
  | true =>
    have hremoved : (deployRun input).removed = input.session.2.removed := by
      simp only [deployRun, hready]
      split
      · next h => cases h
      · split
        · rfl
        · split
          · rfl
          · split
            · rfl
            · split <;> rfl
    rw [hremoved, DeployInput.session, execute_removed]
    simp [DeployInput.Removes]

/-- Nothing outside is removed where each tree which is found resolves to a place in the remote directory,
and none is found in the home directory when that is where the script works. -/
theorem staysInside_of_resolves
    (hcd : input.script.enters = false → ∀ tree, input.script.found (input.target.home ++ tree) = false)
    (hreal : ∀ tree, input.script.found (input.settings.remoteDir ++ tree) = true →
      input.target.real input.settings.remoteDir <+:
        input.target.real (input.settings.remoteDir ++ tree)) : input.StaysInside := by
  intro _ file ⟨command, _, path, htree, hfound, htaken⟩
  have ⟨tree, hpath⟩ : ∃ tree,
      path = input.script.workDir input.target input.settings.remoteDir ++ tree := by
    cases command <;> cases htree <;> exact ⟨_, rfl⟩
  have hwithin := prefix_of_taken htaken
  rw [hpath, ScriptOutcome.workDir] at hfound hwithin
  cases henters : input.script.enters with
  | false => simp [henters, hcd henters] at hfound
  | true =>
    simp only [henters, if_true] at hfound hwithin
    exact (hreal tree hfound).trans hwithin

/-- A call of `update_test_run` says nothing but what this run wrote exactly if its artifacts are
fresh. -/
theorem own_iff_fresh {call : UpdateCall} (h : Reported input call) :
    ((∀ artifact, call.logFile = some artifact → artifact.own = true) ∧
      (∀ artifact, call.junitXml = some artifact → artifact.own = true) ∧
      ∀ json artifact, call.catalogDocument = some (json, artifact) → artifact.own = true) ↔
      input.FreshArtifacts := by
  have hlog : (input.LogArrives →
      ∀ artifact, input.remote remoteLog = some artifact → artifact.own = true) ↔
      (input.LogArrives → input.WritesArtifact remoteLog) := by
    refine imp_congr_right fun harrives ↦ ?_
    rw [remote_own]
    constructor
    · intro hfresh
      exact harrives.2.elim id hfresh
    · exact fun hwrites _ ↦ hwrites
  have hjunit : (∀ artifact, call.junitXml = some artifact → artifact.own = true) ↔
      (input.downloads.junit = .copied → input.HadArtifact remoteJunit →
        input.WritesArtifact remoteJunit) := by
    rw [h.junit]
    by_cases hcopied : input.downloads.junit = .copied
    · simp only [hcopied, if_true, true_imp_iff]
      exact remote_own input remoteJunit
    · simp [hcopied]
  have hcatalog : (∀ json artifact, call.catalogDocument = some (json, artifact) →
      artifact.own = true) ↔
      (input.downloads.catalog = .copied → input.HadArtifact remoteCatalog →
        (∃ json, input.downloads.catalogRead = .document json ∧ json ≠ .null) →
        input.WritesArtifact remoteCatalog) := by
    simp only [h.catalog]
    constructor
    · intro hown hcopied hhad ⟨json, hread, hnull⟩
      apply (remote_own input remoteCatalog).mp _ hhad
      exact fun artifact hremote ↦ hown json artifact ⟨hcopied, hread, hnull, hremote⟩
    · intro hfresh json artifact ⟨hcopied, hread, hnull, hremote⟩
      exact (remote_own input remoteCatalog).mpr
        (fun hhad ↦ hfresh hcopied hhad ⟨json, hread, hnull⟩) artifact hremote
  rw [h.log, hlog, hjunit, hcatalog]
  exact ⟨fun ⟨⟨hlog, hlocal⟩, hjunit, hcatalog⟩ ↦ ⟨hlog, hlocal, hjunit, hcatalog⟩,
    fun h ↦ ⟨⟨h.log, h.localLog⟩, h.junit, h.catalog⟩⟩

/-- A deploy only reports its own run, and removes nothing outside the remote directory, exactly if
everything its script removes is inside and, where it reports, its artifacts are fresh. -/
theorem deployRun_reportsOwnRun_iff (input : DeployInput) :
    ReportsOwnRun input (deployRun input) ↔
      input.StaysInside ∧ (input.Reports → input.FreshArtifacts) := by
  have hinside : (∀ file, (deployRun input).removed file = true →
      input.target.real input.settings.remoteDir <+: file) ↔ input.StaysInside := by
    simp only [deployRun_removed]
    exact ⟨fun h hready file hfile ↦ h file ⟨hready, hfile⟩,
      fun h file hfile ↦ h hfile.1 file hfile.2⟩
  constructor
  · intro h
    refine ⟨hinside.mp h.inside, fun hreports ↦ ?_⟩
    have ⟨call, hcall, hreported, _⟩ := deployRun_reports hreports
    exact (own_iff_fresh hreported).mp
      ⟨h.log call hcall, h.junit call hcall, h.catalog call hcall⟩
  · intro ⟨hstays, hfresh⟩
    have hcalls : ∀ call, (deployRun input).update = some call →
        Reported input call ∧ input.FreshArtifacts ∧
          (deployRun input).testExit = input.session.2.testExit := by
      intro call hcall
      have hreports := reports_of_update hcall
      have ⟨other, hother, hreported, htest⟩ := deployRun_reports hreports
      have heq : other = call := Option.some.inj (hother.symm.trans hcall)
      exact ⟨heq ▸ hreported, hfresh hreports, htest⟩
    refine ⟨hinside.mpr hstays, ?_, ?_, ?_, ?_⟩
    · intro call hcall
      have ⟨hreported, hfresh, _⟩ := hcalls call hcall
      exact ((own_iff_fresh hreported).mpr hfresh).1
    · intro call hcall
      have ⟨hreported, hfresh, _⟩ := hcalls call hcall
      exact ((own_iff_fresh hreported).mpr hfresh).2.1
    · intro call hcall
      have ⟨hreported, hfresh, _⟩ := hcalls call hcall
      exact ((own_iff_fresh hreported).mpr hfresh).2.2
    · intro call hcall hsuccess
      have ⟨hreported, _, htest⟩ := hcalls call hcall
      rw [htest]
      exact execute_eq_zero (hreported.success.mp hsuccess)

end Deploy

/-- An earlier deploy has left a JUnit file; the test run of this one dies before it writes its own. -/
def leftoverInput : DeployInput where
  settings :=
    { remoteDir := ["home", "ubuntu", "ai-cloud-validation"]
      labId := some 7
      canUpload := true
      endpoint := some "lab-endpoint"
      ssaIssuer := some "ssa-issuer" }
  preparation := ⟨true, true, true, true, true, some "run-2"⟩
  target :=
    { home := ["home", "ubuntu"]
      real := id
      files := fun path ↦
        if path = ["home", "ubuntu", "ai-cloud-validation", "junit-validation.xml"] then
          some "<testsuites/>"
        else none }
  script :=
    { enters := true
      found := fun _ ↦ false
      sudoRm := fun _ ↦ .removed
      rm := fun _ ↦ .removed
      testRun := ⟨1, [(["pytest-output.log"], "error: no such suite")]⟩ }
  ssh := .finished
  downloads := ⟨.copied, .copied, .failed, .unreadable⟩
  localFiles := ⟨none, none, none⟩

theorem leftover_junit_reported : ¬ ∀ input, ReportsOwnRun input (deployRun input) := by
  intro h
  cases (h leftoverInput).junit _ rfl ⟨"<testsuites/>", false⟩ (by rfl)

end IsvValidation.Deploy
