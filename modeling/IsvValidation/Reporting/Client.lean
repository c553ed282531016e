import IsvValidation.Library.Execution
import IsvValidation.Reporting.Artifact

/-!
# Reports to the service

The requests with which a test run is reported: a token, the creation of the run, its results, and the update which
closes it. A request which the service refuses, or which does not reach it, ends the process, and its callers decide
whether that is the end. Two commands report: `isvctl test run`, around the tests which it runs, and `report update`,
for tests which were run elsewhere.
-/

namespace IsvValidation.Reporting

open Config Host Library Library.Program

/-! ## Requests -/

abbrev Fields := List (String × Json)

/-- How a request, a command or the reading of a file fails: with an HTTP status, without an answer, or otherwise. -/
inductive Failure where
  | http (code : ℕ)
  | url
  | missing
  | os
  | value
  | interrupt
  deriving DecidableEq

/-- How a program ends which does not end normally: `SystemExit`, an exception, or an interrupt. -/
inductive Raised where
  | exit (code : ℕ)
  | exception (failure : Failure)
  | interrupt
  deriving DecidableEq

/-- What the commands ask for: requests to the issuer of tokens and to the service, the tests, files, and the clock. -/
inductive Call where
  | token (issuer clientId clientSecret : String)
  | createRun (endpoint : String) (labId : ℤ) (token : String) (payload : Fields)
  | results (endpoint : String) (labId : ℤ) (runId : Json) (token junitXml : String)
  | updateRun (endpoint : String) (labId : ℤ) (runId : Json) (token : String) (payload : Fields)
  | orchestrate
  | saveRunId (runId : Json)
  | loadRunId
  | readLog
  | readJunit
  | readCatalog
  | readArtifact
  | buildDocument
  | saveDocument (document : Catalog.CatalogDocument)
  | uploadCatalog (endpoint token : String) (published : Published)
  | duration (start : String)
  | now

/-- What comes back: for the tests whether they succeeded, and the catalog; a file which is not there is nothing, and
so is one which is no artifact; and for a document which was built its version and its source. -/
abbrev Response : Call → Type
  | .token _ _ _ | .createRun _ _ _ _ | .results _ _ _ _ _ | .updateRun _ _ _ _ _ | .uploadCatalog _ _ _ => Json
  | .orchestrate => Bool × Option Fields
  | .saveRunId _ | .saveDocument _ => Unit
  | .loadRunId => Option String
  | .readLog | .readJunit => Option String
  | .readCatalog => Option Json
  | .readArtifact => Option Artifact
  | .buildDocument => String × Option String × Catalog.CatalogDocument
  | .duration _ => ℤ
  | .now => String

abbrev Reply (call : Call) : Type := Except Failure (Response call)

abbrev Run := Program Call Reply Raised

/-- What a failure raises, where it is not handled. -/
def raisedBy : Failure → Raised
  | .interrupt => .interrupt
  | failure => .exception failure

/-- A failure of a request; a refusal and a failed connection end the process. -/
def exitBy : Failure → Raised
  | .http _ | .url => .exit 1
  | failure => raisedBy failure

def ask (call : Call) : Run (Response call) := (invoke call).mapError raisedBy

def request (call : Call) : Run (Response call) := (invoke call).mapError exitBy

/-- An error which is not an interrupt is only warned of. -/
def orWarn {α β : Type} (fallback : β) (result : α → β) (program : Run α) : Run β := do
  match ← program.attempt with
  | .ok value => return result value
  | .error .interrupt => .raise .interrupt
  | .error _ => return fallback

/-! ## Machines -/

/-- `urlparse`, with the scheme and the host name; the redaction of a text; and Python's `upper` and `strip`. -/
structure Machine where
  urlparse : String → Option (String × Option String)
  redactText : String → String
  upper : String → String
  strip : String → String

/-- The credentials and the places of the service; what is not set is empty. -/
structure Environment where
  clientId : String := ""
  clientSecret : String := ""
  endpoint : String := ""
  ssaIssuer : String := ""

def loopbackHosts : List String := ["localhost", "127.0.0.1", "::1"]

/-- `is_secure_url`. -/
def isSecureUrl (machine : Machine) (url : String) : Bool :=
  match machine.urlparse url with
  | some (scheme, some host) => host ≠ "" && (scheme = "https" || (scheme = "http" && host ∈ loopbackHosts))
  | _ => false

/-- `check_upload_credentials`. -/
def canUpload (environment : Environment) : Bool := environment.clientId ≠ "" && environment.clientSecret ≠ ""

/-! ## The client -/

/-- The access token in the answer of the issuer. -/
def accessToken : Json → Option String
  | .obj fields =>
    match fields.lookup "access_token" with
    | some (.str token) => if token = "" then none else some token
    | _ => none
  | _ => none

/-- What `get_jwt_token` makes of an answer: whatever is wrong with it ends the process. -/
def tokenOf : Except Failure Json → Except Raised String
  | .error .interrupt => .error .interrupt
  | .error _ => .error (.exit 1)
  | .ok answer => ((accessToken answer).map .ok).getD (.error (.exit 1))

/-- `get_jwt_token`; the credentials are not sent to an insecure place. -/
def getJwtToken (machine : Machine) (environment : Environment) : Run String :=
  if !isSecureUrl machine environment.ssaIssuer then .raise (.exit 1)
  else do
    let call := Call.token environment.ssaIssuer environment.clientId environment.clientSecret
    let answer ← (invoke call).attempt
    .ofExcept (tokenOf answer)

/-- An entry of a payload, where there is something to say. -/
def entry (key : String) (value : Option Json) : Fields := (value.map fun value ↦ (key, value)).toList

def filled (text : Option String) : Option Json := (text.filter (· ≠ "")).map .str

structure CreateArgs where
  testTargetType : String
  tags : List String
  executedBy : String := "isvctl"
  ciReference : String := "local-run"
  startTime : String
  isvSoftwareVersion : Option String
  isvTestVersion : Option String
  suite : Option String
  capability : Option String

/-- The payload of `create_test_run`. -/
def CreateArgs.payload (args : CreateArgs) : Fields :=
  [("executedBy", .str args.executedBy), ("ciReference", .str args.ciReference),
    ("tags", .arr (args.tags.map .str)), ("testTargetType", .str args.testTargetType),
    ("testRunStartAt", .str args.startTime)] ++
    entry "isvSoftwareVersion" (filled args.isvSoftwareVersion) ++ entry "isvTestVersion" (filled args.isvTestVersion) ++
    entry "suite" (filled args.suite) ++ entry "capability" (filled args.capability)

/-- The identity of the run in the answer. -/
def runIdOf (answer : Json) : Option Json :=
  match (do (← answer.item "data").item "testRunId" : Except PyError Json) with
  | .ok runId => some runId
  | .error _ => none

/-- `create_test_run` of the client; where the identity cannot be saved, this is only said. -/
def clientCreate (environment : Environment) (labId : ℤ) (token : String) (args : CreateArgs) : Run Json := do
  let answer ← request (.createRun environment.endpoint labId token args.payload)
  match runIdOf answer with
  | none => .raise (.exception .value)
  | some runId => do
    let saved ← (invoke (.saveRunId runId)).attempt
    match saved with
    | .ok _ | .error .os => return runId
    | .error failure => .raise (raisedBy failure)

/-- Which build ran the tests. -/
structure RunIdentity where
  isvTestVersion : Json
  catalogDigest : Json
  buildRef : Json

/-- `run_identity`: what the catalog says, as it says it; only the version may come from here. -/
def runIdentity (catalog : Option Fields) (localVersion : Option String) : RunIdentity :=
  let document := catalog.getD []
  { isvTestVersion := ((document.lookup "isvTestVersion").filter Json.truthy).getD
      ((localVersion.map .str).getD .null)
    catalogDigest := (document.lookup "catalogDigest").getD .null
    buildRef := (document.lookup "isvTestBuildRef").getD .null }

/-- A value which is there. -/
def notNone : Json → Option Json
  | .null => none
  | value => some value

structure UpdateArgs where
  status : String
  duration : Option ℤ
  completeTime : Option String := none
  log : Option String
  isvSoftwareVersion : Option String
  identity : RunIdentity

/-- The payload of `update_test_run`. -/
def UpdateArgs.payload (args : UpdateArgs) (completeTime : String) : Fields :=
  [("testRunStatus", .str args.status), ("testRunCompleteAt", .str completeTime)] ++
    entry "testDurationInSeconds" (args.duration.map .int) ++ entry "logOutput" (args.log.map .str) ++
    entry "isvSoftwareVersion" (args.isvSoftwareVersion.map .str) ++
    entry "isvTestVersion" (notNone args.identity.isvTestVersion) ++
    entry "isvTestCatalogDigest" (notNone args.identity.catalogDigest) ++
    entry "isvTestBuildRef" (notNone args.identity.buildRef)

/-- `update_test_run` of the client. -/
def clientUpdate (environment : Environment) (labId : ℤ) (runId : Json) (token : String) (args : UpdateArgs) :
    Run Unit := do
  let completeTime ← match args.completeTime with
    | some time => pure time
    | none => ask .now
  let _ ← request (.updateRun environment.endpoint labId runId token (args.payload completeTime))

/-- `report_test_results`. -/
def reportTestResults (environment : Environment) (labId : ℤ) (runId : Json) (token junitXml : String) :
    Run Unit := do
  let _ ← request (.results environment.endpoint labId runId token junitXml)

/-! ## `isvctl test run` -/

/-- Options of the run, and what its configuration says. -/
structure Options where
  noUpload : Bool := false
  demo : Bool := false
  labId : Option ℤ
  tags : List String := []
  isvSoftwareVersion : Option String := none
  suite : Option String := none
  declared : Option String := none
  commands : List String := []
  context : Option String := none
  startTime : String
  isvTestVersion : Option String

/-- `_reported_capability`: what the suite declares, and the core context as none. -/
def reportedCapability (options : Options) : Option String :=
  match options.declared.filter (· ≠ "") with
  | some declared => some declared
  | none => if options.context = some "core" then none else options.context

/-- The platform to which a run is reported. -/
def platformOf (options : Options) : String :=
  (options.declared.filter (· ≠ "")).getD (options.commands.headD "unknown")

/-- Whether results are uploaded, and for which lab. -/
def uploadsFor (environment : Environment) (options : Options) : Option ℤ :=
  if !options.noUpload && !options.demo && canUpload environment && environment.endpoint ≠ "" &&
    environment.ssaIssuer ≠ "" then options.labId.filter (· ≠ 0)
  else none

def createArgs (machine : Machine) (options : Options) : CreateArgs where
  testTargetType := machine.upper (platformOf options)
  tags := if options.tags = [] then ["validation-test", "isvctl"] else options.tags
  startTime := options.startTime
  isvSoftwareVersion := options.isvSoftwareVersion
  isvTestVersion := options.isvTestVersion
  suite := options.suite
  capability := reportedCapability options

section TestRun

variable (machine : Machine) (environment : Environment) (options : Options)

/-- `create_test_run`: the identity of the run, unless something is wrong; a false one is none. -/
def createTestRun (labId : ℤ) : Run (Option Json) :=
  orWarn none (fun runId ↦ if runId.truthy then some runId else none) do
    let token ← getJwtToken machine environment
    clientCreate environment labId token (createArgs machine options)

/-- The log, without the characters which cannot be sent, and redacted. -/
def cleanLog (machine : Machine) (log : Option String) : Option String :=
  log.map fun log ↦ if log = "" then log else machine.redactText (.ofList (log.toList.filter (· ≠ '\x00')))

/-- The results, redacted, where there are any. -/
def sendJunit (labId : ℤ) (runId : Json) (token : String) : Run Unit := do
  match ← ask .readJunit with
  | none => return ()
  | some junit => reportTestResults environment labId runId token (machine.redactText junit)

/-- The upload of the results, whose failure is only warned of. -/
def uploadJunit (labId : ℤ) (runId : Json) (token : String) : Run Unit :=
  orWarn () id (sendJunit machine environment labId runId token)

/-- `update_test_run`. -/
def updateTestRun (labId : ℤ) (runId : Json) (success : Bool) (catalog : Option Fields) : Run Bool := do
  let duration ← orWarn none some (ask (.duration options.startTime))
  let log ← orWarn none id (ask .readLog)
  let args : UpdateArgs := {
    status := if success then "SUCCESS" else "FAILED"
    duration
    log := cleanLog machine log
    isvSoftwareVersion := options.isvSoftwareVersion
    identity := runIdentity catalog options.isvTestVersion }
  orWarn false (fun _ ↦ true) do
    let token ← getJwtToken machine environment
    uploadJunit machine environment labId runId token
    clientUpdate environment labId runId token args

/-- The part of `run` before the tests: the run which was created, if any, and for which lab. -/
def openRun : Run (Option (ℤ × Json)) :=
  match uploadsFor environment options with
  | none => return none
  | some labId => do
    let runId ← createTestRun machine environment options labId
    return runId.map fun runId ↦ (labId, runId)

/-- The part after the tests. -/
def closeRun (created : Option (ℤ × Json)) (success : Bool) (catalog : Option Fields) : Run Unit :=
  match created with
  | none => return ()
  | some (labId, runId) => do
    let _ ← updateTestRun machine environment options labId runId success catalog

/-- `run`, from the decision on the upload to the exit code. -/
def testRun : Run ℕ := do
  let created ← openRun machine environment options
  let (success, catalog) ← ask .orchestrate
  closeRun machine environment options created success catalog
  return if success then 0 else 1

end TestRun

/-! ## `report update` -/

/-- Options of the update; a false text stands for an option which is not given. -/
structure UpdateOptions where
  labId : ℤ
  status : String
  runId : String := ""
  durationSeconds : Option ℤ := none
  completeTime : Option String := none
  durationFrom : String := ""
  logFile : Bool := false
  junitXml : Bool := false
  testCatalog : Bool := false
  isvSoftwareVersion : Option String := none
  isvTestVersion : Option String := none

section ReportUpdate

variable (machine : Machine) (environment : Environment) (options : UpdateOptions)

end ReportUpdate

end IsvValidation.Reporting
