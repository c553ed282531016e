import IsvValidation.Pytest.Bridge

/-!
# Collection inside a pytest session

The session reads its temporary configuration back from JSON, stores the configured validations in a
dictionary by name, resolves each name to a class and parametrises one test for each name it can
resolve. A name without a class is only warned about, and the label of a check becomes a pytest
mark, the marks which skip a test included.
-/

namespace IsvValidation.Pytest

open Config Host Library Resolution

/-! ## The configuration, read back -/

section Reload

variable (host : Runtime)

/-- The text under which `json.dump` writes a mapping key. -/
def keyText : Scalar → String
  | .str text => text
  | .bool value => if value then "true" else "false"
  | .none => "null"
  | .int value => toString value
  | other => host.str (.scalar other)

mutual

/-- A value after `json.dump` and `json.load`: mapping keys are strings, and of two keys with the
same text the later one wins. -/
def reload : Value → Value
  | .scalar value => .scalar value
  | .list items => .list (reloadList items)
  | .dict items => .dict (reloadItems [] items)
  | .set members => .set members

def reloadList : List Value → List Value
  | [] => []
  | value :: rest => reload value :: reloadList rest

def reloadItems (loaded : Items) : List (Scalar × Value) → Items
  | [] => loaded
  | (key, value) :: rest =>
    reloadItems (Value.assign (keyText host key) (reload value) loaded) rest

end

/-- The parameters of a validation as the session reads them. -/
def reloadParams (params : Items) : Items := reloadItems host [] params

end Reload

/-! ## Collected tests -/

/-- `_config_labels`. -/
def configLabels (params : Items) : List String :=
  match params.lookup (.str "labels") with
  | some (.scalar (.str label)) => [label]
  | some (.list labels) => (labels.filterMap Value.str?).filter (· ≠ "")
  | _ => []

/-- One parametrised test: its identifier, the class which executes it, its parameters with the
inventory, and the names of its marks. -/
structure CollectedItem where
  name : String
  validationClass : String
  params : Items
  marks : List String

/-- A mark without a condition skips the test before it runs. -/
def CollectedItem.skipped (item : CollectedItem) : Bool :=
  item.marks.contains "skip" || item.marks.contains "skipif"

section Collect

variable (host : Runtime)

/-- `_resolve_validation_class`. -/
def resolveValidationClass (name : String) (params : Items) : Option String :=
  if isComposite (.dict params) then some "CompositeCheck"
  else resolveClassKey name (host.classes.map ValidationClass.name)

/-- `ConfigLoader.get_all_validations` on the temporary configuration. -/
def getAllValidations (request : SessionRequest) : OrderedMap String Items :=
  .ofList (request.validations.map fun item ↦ (item.1, reloadParams host item.2))

/-- The test for one configured validation, if its name can be resolved. -/
def collectValidation (inventory : Items) (item : String × Items) : Option CollectedItem :=
  (resolveValidationClass host item.1 item.2).map fun validationClass ↦
    { name := item.1
      validationClass
      params := Value.assign "inventory" (.dict inventory) item.2
      marks := configLabels item.2 }

/-- `pytest_generate_tests`, where the configuration loads and resolution was applied before. -/
def generateTests (request : SessionRequest) : List CollectedItem :=
  if host.classes.isEmpty then []
  else (getAllValidations host request).entries.filterMap
    (collectValidation host (reloadParams host request.inventory))

def dummyIds : List String := ["NO_REFRAME_TESTS", "NO_VALIDATIONS"]

/-- The tests which are left after `pytest_collection_modifyitems`; the temporary configuration
excludes nothing. -/
def collected (request : SessionRequest) : List CollectedItem :=
  (generateTests host request).filter fun item ↦ !dummyIds.contains item.name

/-- A validation which becomes a test that runs. -/
structure Collectable (item : String × Items) : Prop where
  classes : host.classes ≠ []
  notDummy : item.1 ∉ dummyIds
  resolved : (resolveValidationClass host item.1 (reloadParams host item.2)).isSome
  notSkipped : "skip" ∉ configLabels (reloadParams host item.2) ∧
    "skipif" ∉ configLabels (reloadParams host item.2)

instance (item : String × Items) : Decidable (Collectable host item) :=
  decidable_of_iff (host.classes ≠ [] ∧ item.1 ∉ dummyIds ∧
      (resolveValidationClass host item.1 (reloadParams host item.2)).isSome ∧
      "skip" ∉ configLabels (reloadParams host item.2) ∧
      "skipif" ∉ configLabels (reloadParams host item.2))
    ⟨fun ⟨h₁, h₂, h₃, h₄⟩ ↦ ⟨h₁, h₂, h₃, h₄⟩, fun ⟨h₁, h₂, h₃, h₄⟩ ↦ ⟨h₁, h₂, h₃, h₄⟩⟩

/-- The stored parameters of a name are those of one of the validations with this name. -/
theorem mem_getAllValidations {request : SessionRequest} {name : String} :
    name ∈ request.validations.map Prod.fst →
      ∃ item ∈ request.validations, item.1 = name ∧
        (name, reloadParams host item.2) ∈ (getAllValidations host request).entries := by
  intro hname
  have hkey : name ∈ (getAllValidations host request).keys := by
    rw [getAllValidations, OrderedMap.mem_keys_ofList, List.map_map]
    exact hname
  obtain ⟨params, hparams⟩ := OrderedMap.mem_keys_iff.mp hkey
  have hmem := OrderedMap.mem_ofList hparams
  obtain ⟨item, hitem, heq⟩ := List.mem_map.mp hmem
  rw [Prod.mk.injEq] at heq
  refine ⟨item, hitem, heq.1, ?_⟩
  rw [heq.2]
  exact OrderedMap.mem_entries_iff.mpr hparams

/-- Where every validation is collectable, every name has a test that runs. -/
theorem exists_collected {request : SessionRequest}
    (h : ∀ item ∈ request.validations, Collectable host item) {name : String}
    (hname : name ∈ request.validations.map Prod.fst) :
    ∃ item ∈ collected host request, item.name = name ∧ item.skipped = false := by
  obtain ⟨item, hitem, rfl, hentry⟩ := mem_getAllValidations host hname
  have hcollectable := h item hitem
  obtain ⟨validationClass, hclass⟩ := Option.isSome_iff_exists.mp hcollectable.resolved
  refine ⟨⟨item.1, validationClass, Value.assign "inventory"
    (.dict (reloadParams host request.inventory)) (reloadParams host item.2),
    configLabels (reloadParams host item.2)⟩, ?_, rfl, ?_⟩
  · rw [collected, List.mem_filter, generateTests, if_neg (by simpa using hcollectable.classes)]
    refine ⟨List.mem_filterMap.mpr ⟨_, hentry, ?_⟩, by simpa using hcollectable.notDummy⟩
    rw [collectValidation, hclass]
    rfl
  · simpa [CollectedItem.skipped] using hcollectable.notSkipped

/-- A session in which every collected test without a skip mark passes. -/
def passingSession (request : SessionRequest) : SessionOutcome :=
  if (collected host request).isEmpty then .returned exitNoTestsCollected [] none
  else .returned exitOk
    (((collected host request).filter fun item ↦ !item.skipped).map fun item ↦
      { name := item.name, passed := true }) none

/-- What a session does under pytest arguments which select nothing: where it exits with `OK` or
`NO_TESTS_COLLECTED`, every collected test without a skip mark has run and left its result. -/
def RunsCollected (session : ℕ → SessionRequest → SessionOutcome)
    (args : List String) : Prop :=
  ∀ n request exitCode captured xml, request.extraPytestArgs = args →
    session n request = .returned exitCode captured xml →
    exitCode = exitOk ∨ exitCode = exitNoTestsCollected →
    ∀ item ∈ collected host request, item.skipped = false →
      ∃ result ∈ captured, result.name = item.name

theorem runsCollected_passingSession (args : List String) :
    RunsCollected host (fun _ request ↦ passingSession host request) args := by
  intro n request exitCode captured xml _ houtcome _ item hitem hruns
  have hsome : (collected host request).isEmpty = false := by
    rw [List.isEmpty_eq_false_iff]
    exact List.ne_nil_of_mem hitem
  simp only [passingSession, hsome, Bool.false_eq_true, if_false, SessionOutcome.returned.injEq]
    at houtcome
  obtain ⟨_, rfl, _⟩ := houtcome
  refine ⟨_, List.mem_map_of_mem (List.mem_filter.mpr ⟨hitem, ?_⟩), rfl⟩
  rw [hruns]
  rfl

end Collect

end IsvValidation.Pytest
