import Mathlib.Data.List.Sort
import Mathlib.Data.Prod.Lex
import IsvValidation.Host.Matching
import IsvValidation.Host.Runtime

/-!
# The supported Kubernetes minors

The check that a provider offers the most recent upstream minors, and that its cluster runs one of
them. The catalogue comes from the output of a step, the upstream releases from the configuration,
and the version of the cluster from `kubectl`. A run of the check passes with a message, or stops as
failed or skipped or with an exception.
-/

namespace IsvValidation.K8s

open Config Host Library

/-- `(major, minor)`, in the order of Python's tuples. -/
abbrev Minor := ℕ ×ₗ ℕ

abbrev Patch := ℕ × ℕ × ℕ

/-- One upstream minor as the release index describes it; dates are day numbers. -/
structure UpstreamCycle where
  minor : Minor
  released : Option ℤ
  latestPatch : Option Patch
  latestPatchReleased : Option ℤ
  deriving DecidableEq

/-- How a check ends when it does not pass. -/
inductive Stop where
  | failed (error : String)
  | skipped (reason : String)
  | raised (error : PyError)
  deriving DecidableEq

structure CommandResult where
  exitCode : ℤ
  stdout : String
  stderr : String

/-- What the check consults: Python's `str`, `repr`, `type` and `int` of any value, `json.loads`,
`date.fromisoformat` and the clock. The day may change between two readings. -/
structure CheckHost where
  data : UnicodeData
  str : Value → String
  repr : Value → String
  typeName : Value → String
  int : Value → Except PyError ℤ
  loads : String → Except PyError Json
  fromIsoformat : String → Option ℤ
  today : ℕ → ℤ

namespace CheckHost

variable (host : CheckHost)

def strOf (value : Value) : String := (value.str?).getD (host.str value)

/-! ## Versions and dates -/

/-- `_VERSION_PATTERN`: `^v?(\d+)\.(\d+)(?:\.(\d+))?`. -/
def versionPattern : Pattern Char (List Char × List Char × Option (List Char)) := do
  let _ ← Pattern.optional (Pattern.one (· == 'v'))
  let major ← Pattern.some host.data.isDecimal
  let _ ← Pattern.one (· == '.')
  let minor ← Pattern.some host.data.isDecimal
  let patch ← Pattern.optional do
    let _ ← Pattern.one (· == '.')
    Pattern.some host.data.isDecimal
  return (major, minor, patch)

/-- `_version_match`, with its groups. -/
def versionMatch (value : Value) : Option (List Char × List Char × Option (List Char)) :=
  value.str?.bind fun text ↦
    ((host.versionPattern).match? (host.data.stripChars text.toList)).map Prod.fst

/-- The digits which `int` accepts at most. -/
@[irreducible] def maxStrDigits : ℕ := 4300

/-- `int(digits)`. -/
def intOfDigits (digits : List Char) : Except PyError ℕ :=
  if maxStrDigits < digits.length then
    .error (.valueError "Exceeds the limit (4300 digits) for integer string conversion")
  else .ok (host.data.toNat digits)

/-- `_parse_minor`. -/
def parseMinor (value : Value) : Except PyError (Option Minor) :=
  match host.versionMatch value with
  | none => .ok none
  | some (major, minor, _) => do
    let major ← host.intOfDigits major
    let minor ← host.intOfDigits minor
    return some (toLex (major, minor))

/-- `_parse_patch`. -/
def parsePatch (value : Value) : Except PyError (Option Patch) :=
  match host.versionMatch value with
  | some (major, minor, some patch) => do
    let major ← host.intOfDigits major
    let minor ← host.intOfDigits minor
    let patch ← host.intOfDigits patch
    return some (major, minor, patch)
  | _ => .ok none

/-- `_parse_date`. -/
def parseDate (value : Option Value) : Option ℤ :=
  ((value.bind Value.str?).map host.data.strip).bind fun text ↦
    if text = "" then none else host.fromIsoformat text

/-- `_render_minor`. -/
def renderMinor (minor : Minor) : String := s!"{(ofLex minor).1}.{(ofLex minor).2}"

/-- `_render_patch`. -/
def renderPatch (version : Patch) : String := s!"{version.1}.{version.2.1}.{version.2.2}"

/-- `_render_minors`; `minors` lists a set. -/
def renderMinors (minors : List Minor) : String :=
  ", ".intercalate ((minors.dedup.insertionSort (· ≥ ·)).map renderMinor)

/-! ## What the check reads -/

/-- An exception which nothing catches ends the check. -/
def orRaise {α : Type} (result : Except PyError α) : Except Stop α := result.mapError .raised

/-- `_step_output`. -/
def stepOutput (config : Items) (subject : String) : Except Stop Items :=
  match config.lookup (.str "step_output") with
  | some (.dict output) =>
    match output.lookup (.str "success") with
    | some (.scalar (.bool false)) =>
      let reported := ((output.lookup (.str "error")).filter Value.truthy).or
        ((output.lookup (.str "message")).filter Value.truthy)
      .error (.failed ((reported.map host.strOf).getD s!"{subject} step failed"))
    | _ => .ok output
  | _ => .error (.failed s!"Missing step_output for {subject} validation")

/-- The minors which `offered_versions` names. -/
def offeredMinors (output : Items) : Except Stop (List Minor) :=
  let offeredRaw := (output.lookup (.str "offered_versions")).getD .null
  match offeredRaw with
  | .list (first :: others) => do
    let parsed ← orRaise ((first :: others).mapM host.parseMinor)
    match parsed.filterMap id with
    | [] =>
      let shown := host.repr offeredRaw
      throw (.failed s!"No entry in offered_versions parses as a Kubernetes version: {shown}")
    | offered => return offered
  | _ =>
    let shown := host.repr offeredRaw
    .error (.failed ("Step output must report offered_versions as a non-empty list of Kubernetes " ++
      s!"versions, got {shown}"))

/-- `_parse_positive_int`. -/
def parsePositiveInt (config : Items) (key : String) (default : ℤ) : Except Stop ℤ :=
  match config.lookup (.str key) with
  | none => .ok default
  | some raw =>
    let shown := host.repr raw
    let type := host.typeName raw
    match raw with
    | .scalar (.bool _) => .error (.failed s!"`{key}` must be an integer, got bool: {shown}")
    | _ =>
      match host.int raw with
      | .ok value =>
        if value < 1 then .error (.failed s!"{key} must be >= 1 (got {value})") else .ok value
      | .error (.typeError _) | .error (.valueError _) =>
        .error (.failed s!"`{key}` must be an integer, got {type}: {shown}")
      | .error raised => .error (.raised raised)

/-- `_cycle`. -/
def cycle (entry : Value) : Except PyError (Option UpstreamCycle) :=
  match entry with
  | .dict items => do
    let label := (((items.lookup (.str "minor")).filter Value.truthy).map host.strOf).getD ""
    match ← host.parseMinor (.str (host.data.strip label)) with
    | none => return none
    | some minor =>
      let latestPatch ← host.parsePatch ((items.lookup (.str "latest_patch")).getD .null)
      return some
        { minor
          released := host.parseDate (items.lookup (.str "released"))
          latestPatch
          latestPatchReleased := host.parseDate (items.lookup (.str "latest_patch_released")) }
  | _ => .ok none

/-- The upstream index as a Python value; a string holds JSON. -/
def upstreamIndex (config : Items) : Except Stop Value :=
  match config.lookup (.str "upstream_cycles") with
  | some (.scalar (.str text)) =>
    if host.data.strip text = "" then .ok (.list [])
    else
      match host.loads text with
      | .ok json => .ok json.toValue
      | .error (.other "JSONDecodeError" message) =>
        .error (.skipped s!"Upstream Kubernetes release index is not valid JSON: {message}")
      | .error raised => .error (.raised raised)
  | some raw => .ok raw
  | none => .ok .null

/-- `cycles.sort(key=lambda cycle: cycle.minor, reverse=True)`, which keeps the order of entries for
one minor. -/
def sortCycles (cycles : List UpstreamCycle) : List UpstreamCycle :=
  cycles.insertionSort fun cycle other ↦ other.minor ≤ cycle.minor

/-- `_upstream_cycles`. -/
def upstreamCycles (config : Items) : Except Stop (List UpstreamCycle) := do
  match ← host.upstreamIndex config with
  | .list (first :: others) => do
    let found ← orRaise ((first :: others).mapM host.cycle)
    match found.filterMap id with
    | [] =>
      let shown := host.repr (.list (first :: others))
      throw (.skipped s!"Upstream Kubernetes release index named no usable release cycles: {shown}")
    | cycles => return sortCycles cycles
  | _ =>
    throw (.skipped ("Upstream Kubernetes release index is unavailable; wire the " ++
      "fetch_upstream_k8s_versions step so the offering can be compared against upstream"))

/-- `command_detail`. -/
def commandDetail (result : CommandResult) : String :=
  if host.data.strip result.stderr ≠ "" then host.data.strip result.stderr
  else if host.data.strip result.stdout ≠ "" then host.data.strip result.stdout
  else s!"exit {result.exitCode}"

/-- `^(v\d+\.\d+\.\d+)`, with the text it covers. -/
def gitVersionPattern : Pattern Char (List Char) := do
  let v ← Pattern.one (· == 'v')
  let major ← Pattern.some host.data.isDecimal
  let dot ← Pattern.one (· == '.')
  let minor ← Pattern.some host.data.isDecimal
  let dot' ← Pattern.one (· == '.')
  let patch ← Pattern.some host.data.isDecimal
  return v :: major ++ dot :: minor ++ dot' :: patch

/-- `parse_server_version`. -/
def parseServerVersion (stdout : String) : Except PyError (Option String) :=
  match host.loads stdout with
  | .error (.other "JSONDecodeError" _) => .ok none
  | .error raised => .error raised
  | .ok data => do
    let server ← data.get "serverVersion"
    let version ← ((server.filter Json.truthy).getD (.obj [])).get "gitVersion"
    match version.filter Json.truthy with
    | none => return none
    | some (.str text) =>
      return ((host.gitVersionPattern).match? text.toList).map fun way ↦ String.ofList way.1
    | some _ => throw (.typeError "expected string or bytes-like object")

/-- `_server_version`, from the answer of `kubectl version -o json`. -/
def serverVersion (kubectl : CommandResult) : Except Stop Patch :=
  if kubectl.exitCode ≠ 0 then
    let detail := host.commandDetail kubectl
    .error (.failed s!"Could not read the Kubernetes server version: {detail}")
  else do
    let version ← orRaise (host.parseServerVersion kubectl.stdout)
    match ← orRaise (host.parsePatch ((version.map Value.str).getD .null)) with
    | none => throw (.failed "kubectl reported no parseable Kubernetes server version")
    | some server => return server

/-! ## The check -/

/-- The minor of a version. -/
def minorOf (version : Patch) : Minor := toLex (version.1, version.2.1)

/-- Days since the release, where the index has a date. -/
def age (today : ℤ) (cycle : UpstreamCycle) : Option ℤ := cycle.released.map (today - ·)

/-- `age is not None and age <= grace_days`. -/
def isFresh (graceDays today : ℤ) (cycle : UpstreamCycle) : Bool :=
  (age today cycle).any (· ≤ graceDays)

/-- A minor of the window as the messages name it. -/
def describe (today : ℤ) (cycle : UpstreamCycle) : String :=
  renderMinor cycle.minor ++
    ((age today cycle).map fun days ↦ s!" (released {days} day(s) ago)").getD ""

/-- `_verify_displaced_cluster`. -/
def verifyDisplacedCluster (server : Patch) (cycles : List UpstreamCycle) (behind minorCount : ℕ)
    (graceDays : ℤ) : Except Stop String :=
  match cycles[behind - minorCount]? with
  | none => .error (.raised (.other "IndexError" "list index out of range"))
  | some displacedBy =>
    let today := host.today 1
    let version := renderPatch server
    let label := renderMinor displacedBy.minor
    if isFresh graceDays today displacedBy then
      let days := (age today displacedBy).getD 0
      .ok (s!"cluster runs {version}, pushed out of the window {days} day(s) ago by " ++
        s!"{label} and still inside the {graceDays}-day window to move")
    else
      let since := ((age today displacedBy).map fun days ↦ s!" {days} day(s) ago").getD ""
      let window := ", ".intercalate ((cycles.take minorCount).map fun cycle ↦ renderMinor cycle.minor)
      let newest := (cycles.head?.map fun cycle ↦ renderMinor cycle.minor).getD ""
      .error (.failed (s!"Cluster runs {version}, {behind} minor(s) behind upstream {newest} and " ++
        s!"outside the {minorCount} most recent ({window}) since {label} released{since}"))

/-- `_verify_cluster_version`. -/
def verifyClusterVersion (kubectl : CommandResult) (offered : List Minor)
    (cycles : List UpstreamCycle) (minorCount : ℕ) (graceDays : ℤ) : Except Stop String := do
  let server ← host.serverVersion kubectl
  let version := renderPatch server
  match cycles.findIdx? fun cycle ↦ cycle.minor = minorOf server with
  | none =>
    throw (.failed s!"Cluster runs {version}, a minor the upstream release index does not carry")
  | some behind =>
    if minorCount ≤ behind then
      host.verifyDisplacedCluster server cycles behind minorCount graceDays
    else if minorOf server ∉ offered then
      let minor := renderMinor (minorOf server)
      let shown := renderMinors offered
      throw (.failed (s!"Reported catalogue omits {minor}, the in-window minor this cluster runs " ++
        s!"({version}), so it does not describe this offering - offered: {shown}"))
    else return s!"cluster runs {version}"

/-- `K8sSupportedMinorVersionsCheck.run`; the result is the message of a pass. -/
def run (config : Items) (kubectl : CommandResult) : Except Stop String := do
  let output ← host.stepOutput config "Kubernetes version support"
  let offered ← host.offeredMinors output
  let minorCount ← host.parsePositiveInt config "supported_minor_count" 3
  let graceDays ← host.parsePositiveInt config "availability_grace_days" 42
  let cycles ← host.upstreamCycles config
  let window := cycles.take minorCount.toNat
  let today := host.today 0
  let absent := window.filter fun cycle ↦ cycle.minor ∉ offered
  let awaited := (absent.filter (isFresh graceDays today)).map (describe today)
  let missing := (absent.filter fun cycle ↦ !isFresh graceDays today cycle).map (describe today)
  if missing ≠ [] then
    let named := ", ".intercalate missing
    let shown := renderMinors offered
    throw (.failed (s!"Provider does not offer {missing.length} of the {window.length} most recent " ++
      s!"upstream minor(s): {named} - offered: {shown}"))
  else
    let note ← host.verifyClusterVersion kubectl offered cycles minorCount.toNat graceDays
    let covered := ", ".intercalate
      ((window.filter fun cycle ↦ cycle.minor ∈ offered).map fun cycle ↦ renderMinor cycle.minor)
    let message := s!"Provider offers the upstream maintenance window ({covered})"
    let named := ", ".intercalate awaited
    let message := if awaited.isEmpty then message
      else message ++ s!"; still within the {graceDays}-day availability window for {named}"
    return message ++ s!"; {note}"

end CheckHost

end IsvValidation.K8s
