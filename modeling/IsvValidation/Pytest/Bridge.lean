import IsvValidation.Library.OrderedMap
import IsvValidation.Junit.Document
import IsvValidation.Resolution.Entries

/-!
# The bridge to pytest

Ready entries are given names for the configuration of a pytest session, the session is run, and
its captured results are mapped back to terminal records by name. The session itself belongs to
pytest: it is any function from the request to an outcome.
-/

namespace IsvValidation.Pytest

open Config Host Library Resolution

/-! ## Names -/

/-- `replace(entry.entry, name=key)`, in a fresh record. -/
def rename (record : ResolvedEntry) (key : String) : ResolvedEntry :=
  { entry := { record.entry with name := key }, renderedParams := record.renderedParams }

/-- How many ready entries carry a name. -/
def nameCount (records : List ResolvedEntry) (name : String) : ℕ :=
  records.countP (·.entry.name = name)

/-- The name of the `count`-th entry of a duplicated pair of name and category. -/
def qualify (name category : String) (count : ℕ) : String :=
  if count = 1 then s!"{name}-{category}" else s!"{name}-{category}-{count}"

/-- The loop of `_entries_with_pytest_names`, which counts the pairs seen so far. -/
def nameEntries (counts : String → ℕ) :
    OrderedMap (String × String) ℕ → List ResolvedEntry → List ResolvedEntry
  | _, [] => []
  | pairCounts, record :: rest =>
    let className := record.entry.name
    let pair := (className, record.entry.category)
    if counts className = 1 then rename record className :: nameEntries counts pairCounts rest
    else
      let count := (pairCounts.get? pair).getD 0 + 1
      rename record (qualify className record.entry.category count) ::
        nameEntries counts (pairCounts.insert pair count) rest

/-- `_entries_with_pytest_names`. -/
def entriesWithPytestNames (records : List ResolvedEntry) : List ResolvedEntry :=
  let ready := records.filter ResolvedEntry.isReady
  nameEntries (nameCount ready) OrderedMap.empty ready

/-! ## The request -/

/-- `_resolved_entries_to_pytest_validations`: one-key mappings from name to parameters. -/
def pytestValidations (records : List ResolvedEntry) : List (String × Items) :=
  records.map fun record ↦ (record.entry.name, record.renderedParams.getD [])

/-- The inventory under construction: `steps` is the mapping first found under that key, which is
`shared` with the result until a step output puts another value there. -/
structure InventoryState where
  result : Items
  steps : Items
  shared : Bool := true

namespace InventoryState

def merge (target source : Items) : Items :=
  source.foldl (fun items item ↦ Value.assignKey item.1 item.2 items) target

/-- One key of a step output, merged into the result. -/
def addValue (state : InventoryState) (key : Scalar) (value : Value) : InventoryState :=
  if key = .str "steps" ∧ state.shared then
    match value with
    | .dict items => { state with steps := merge state.steps items }
    | other => { state with result := Value.assignKey key other state.result, shared := false }
  else
    match value with
    | .dict items =>
      match (state.result.lookup key).getD (.dict []) with
      | .dict existing =>
        { state with result := Value.assignKey key (.dict (merge existing items)) state.result }
      | _ => state
    | other => { state with result := Value.assignKey key other state.result }

/-- The contribution of one entry's step output. -/
def addEntry (state : InventoryState) (record : ResolvedEntry) : InventoryState :=
  match record.entry.step.filter (· != ""),
      (record.renderedParams.getD []).lookup (.str "step_output") with
  | some step, some (.dict output) =>
    let named := { state with steps := Value.assign step (.dict output) state.steps }
    output.foldl (fun state item ↦ state.addValue item.1 item.2) named
  | _, _ => state

/-- The finished mapping. -/
def view (state : InventoryState) : Items :=
  if state.shared then Value.assign "steps" (.dict state.steps) state.result else state.result

end InventoryState

/-- `_build_inventory`. -/
def buildInventory (records : List ResolvedEntry) (inventory : Items) : Items :=
  let steps := match inventory.lookup (.str "steps") with
    | some (.dict steps) => steps
    | _ => []
  (records.foldl InventoryState.addEntry ⟨Value.assign "steps" (.dict steps) inventory, steps, true⟩).view

/-- What a pytest session is started with: the content of the temporary configuration and the
command line options. -/
structure SessionRequest where
  validations : List (String × Items)
  inventory : Items
  settings : Items
  extraPytestArgs : List String
  verbose : Bool
  junitxml : Option String
  suiteName : String

/-- The request of `run_validations_via_pytest` for the named entries. -/
def sessionRequest (named : List ResolvedEntry) (settings inventory : Items)
    (extraPytestArgs : List String) (verbose : Bool) (junitxml : Option String)
    (suiteName : String) : SessionRequest :=
  { validations := pytestValidations named
    inventory := buildInventory named inventory
    settings, extraPytestArgs, verbose, junitxml, suiteName }

/-- `json.dump` accepts the temporary configuration. -/
def SessionRequest.jsonable (request : SessionRequest) : Bool :=
  (request.validations.all fun item ↦ Value.jsonableItems item.2) &&
    Value.jsonableItems request.inventory && Value.jsonableItems request.settings

/-! ## Results -/

/-- One captured result of `test_validation`. -/
structure ValidationResult where
  name : String
  passed : Bool
  skipped : Bool := false
  message : String := ""
  category : String := ""
  errorReason : Option String := none
  subtestSummary : SubtestSummary := {}
  deriving DecidableEq

/-- `_result_to_resolved_entry`. -/
def resultToResolvedEntry (record : ResolvedEntry) (result : ValidationResult) : ResolvedEntry :=
  let base : ResolvedEntry :=
    { entry := record.entry
      renderedParams := record.renderedParams
      message := result.message
      subtestSummary := result.subtestSummary }
  if result.skipped then { base with state := some .skipped, skipReason := some .runtimeSkip }
  else if result.passed then { base with state := some .passed }
  else if result.errorReason = some ErrorReason.runtimeException.value then
    { base with state := some .error, errorReason := some .runtimeException }
  else { base with state := some .failed }

/-- The record of an entry for which no result was captured. -/
def deselected (record : ResolvedEntry) : ResolvedEntry :=
  { entry := record.entry
    renderedParams := record.renderedParams
    state := some .skipped
    skipReason := some .excluded
    message := "excluded by pytest -k/-m filter" }

/-- The results by name; the last one captured under a name wins. -/
def resultsByName (results : List ValidationResult) : OrderedMap String ValidationResult :=
  .ofList (results.map fun result ↦ (result.name, result))

/-- `_apply_pytest_results`. -/
def applyPytestResults (records : List ResolvedEntry) (results : List ValidationResult) :
    List ResolvedEntry :=
  records.map fun record ↦
    match (resultsByName results).get? record.entry.name with
    | none => deselected record
    | some result => resultToResolvedEntry record result

/-- How a session ended: with an exit code, the captured results and the report it wrote, or with
an exception. -/
inductive SessionOutcome where
  | returned (exitCode : Int) (results : List ValidationResult) (xml : Option Junit.JUnitDoc)
  | raised (error : PyError)

/-- `ExitCode.OK` and `ExitCode.NO_TESTS_COLLECTED`. -/
def exitOk : Int := 0
def exitNoTestsCollected : Int := 5

/-! ## What the bridge guarantees -/

theorem isTerminal_resultToResolvedEntry (record : ResolvedEntry) (result : ValidationResult) :
    (resultToResolvedEntry record result).IsTerminal := by
  unfold resultToResolvedEntry
  simp only
  split_ifs <;> exact ⟨rfl, by simp, by simp⟩

theorem isTerminal_deselected (record : ResolvedEntry) : (deselected record).IsTerminal :=
  ⟨rfl, by simp [deselected], by simp [deselected]⟩

theorem entry_resultToResolvedEntry (record : ResolvedEntry) (result : ValidationResult) :
    (resultToResolvedEntry record result).entry = record.entry := by
  unfold resultToResolvedEntry
  simp only
  split_ifs <;> rfl

/-- Applying results keeps every entry in its place and makes it terminal. -/
theorem applyPytestResults_forall₂ (records : List ResolvedEntry)
    (results : List ValidationResult) :
    List.Forall₂ (fun record after ↦ after.entry = record.entry ∧ after.IsTerminal) records
      (applyPytestResults records results) := by
  unfold applyPytestResults
  rw [List.forall₂_map_right_iff, List.forall₂_same]
  intro record _
  cases (resultsByName results).get? record.entry.name with
  | none => exact ⟨rfl, isTerminal_deselected record⟩
  | some result =>
    exact ⟨entry_resultToResolvedEntry record result, isTerminal_resultToResolvedEntry record result⟩

/-- The entry apart from its name, which is what execution keeps of a declared entry. -/
structure SameEntry (after before : ValidationEntry) : Prop where
  category : after.category = before.category
  step : after.step = before.step
  phase : after.phase = before.phase
  paramsTemplate : after.paramsTemplate = before.paramsTemplate

theorem SameEntry.refl (entry : ValidationEntry) : SameEntry entry entry := ⟨rfl, rfl, rfl, rfl⟩

theorem nameEntries_forall₂ (counts : String → ℕ) (pairCounts : OrderedMap (String × String) ℕ)
    (records : List ResolvedEntry) :
    List.Forall₂ (fun record named ↦ ∃ key, named = rename record key) records
      (nameEntries counts pairCounts records) := by
  induction records generalizing pairCounts with
  | nil => exact .nil
  | cons record rest ih =>
    unfold nameEntries
    simp only
    split
    · exact .cons ⟨_, rfl⟩ (ih pairCounts)
    · exact .cons ⟨_, rfl⟩ (ih _)

/-- Ready entries come back renamed, one for one and in order. -/
theorem entriesWithPytestNames_forall₂ {records : List ResolvedEntry}
    (hready : ∀ record ∈ records, record.isReady = true) :
    List.Forall₂ (fun record named ↦ ∃ key, named = rename record key) records
      (entriesWithPytestNames records) := by
  unfold entriesWithPytestNames
  rw [List.filter_eq_self.mpr hready]
  exact nameEntries_forall₂ _ _ records

end IsvValidation.Pytest
