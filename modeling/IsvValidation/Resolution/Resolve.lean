import Mathlib.Data.List.Sort
import IsvValidation.Library.OrderedMap
import IsvValidation.Library.Sequence
import IsvValidation.Resolution.Entries

/-!
# Resolution of validation entries

Every entry is decided before execution: malformed, excluded by name or label, filtered by
capability, bound to a step which is skipped, unknown or without output, outside the requested
phases, impossible to render, or else ready with its rendered parameters. The only exceptions
which escape come from looking a step up in step outputs that are not a mapping.
-/

namespace IsvValidation.Resolution

open Config Host Library

/-- Distinct names in code point order. -/
def sortedNames (names : List String) : List String :=
  names.dedup.insertionSort (· ≤ ·)

/-- `_validate_entry_shape`. -/
def validateEntryShape (host : Runtime) (entry : ValidationEntry) : Option String :=
  if entry.name = "" then some "validation name must be a non-empty string"
  else if entry.category = "" then
    some s!"validation '{entry.name}' category must be a non-empty string"
  else
    match entry.paramsTemplate with
    | .dict items =>
      match (items.lookup (.str "_invalid_config")).filter Value.truthy with
      | some message => some (host.strOf message)
      | none =>
        match (items.lookup (.str "requires")).filter fun value ↦ !value.isNull with
        | none => none
        | some requires =>
          (requiresError requires).map fun message ↦ s!"validation '{entry.name}' {message}"
    | _ => some s!"validation '{entry.name}' parameters must be a mapping"

section Rendering

variable (host : Runtime) (context : Items)

/-- `_render_string`: only strings with both markers are templates. -/
def renderString (text : String) : Except String String :=
  if Text.isTemplate text then host.jinja.renderStrict text context else .ok text

mutual

/-- `_render_value`: strings at any depth, with mapping keys left alone. -/
def renderValue : Value → Except String Value
  | .scalar (.str text) => (renderString host context text).map Value.str
  | .scalar value => .ok (.scalar value)
  | .list items => (renderValues items).map Value.list
  | .dict items => (renderItems items).map Value.dict
  | .set members => .ok (.set members)

def renderValues : List Value → Except String (List Value)
  | [] => .ok []
  | value :: rest => do
    let value ← renderValue value
    let rest ← renderValues rest
    return value :: rest

def renderItems : List (Scalar × Value) → Except String Items
  | [] => .ok []
  | (key, value) :: rest => do
    let value ← renderValue value
    let rest ← renderItems rest
    return (key, value) :: rest

end

/-- `_render_params`; the shape check has established that the template is a mapping. -/
def renderParams (entry : ValidationEntry) : Except String Items :=
  match entry.paramsTemplate with
  | .dict items => renderItems host context items
  | _ => .error "object has no attribute 'items'"

end Rendering

/-- The keyword arguments of `resolve_entries`. `stepOutputs` is whatever the context holds under
`steps`. -/
structure ResolveInputs where
  stepOutputs : Value
  stepPhases : OrderedMap String String
  requestedPhases : List String
  includeLabels : List String
  excludeLabels : List Scalar
  excludeTests : List Scalar
  renderContext : Items
  capability : Option String
  skippedSteps : List String

section Resolve

variable (host : Runtime) (inputs : ResolveInputs)

/-- Rendered parameters as the check receives them, with its step's output in place of the
wiring keys. -/
def finishParams (entry : ValidationEntry) (output : Option Value) (rendered : Items) : Items :=
  let rendered := match output with
    | some output => Value.assign "step_output" output (Value.pop "step" rendered)
    | none => rendered
  Value.assign "_category" (.str entry.category) (Value.pop "requires" (Value.pop "phase" rendered))

/-- The decisions which need no step output. -/
def resolveByConfig (entry : ValidationEntry) : Option ResolvedEntry :=
  match validateEntryShape host entry with
  | some message => some (.error entry .invalidConfig message)
  | none =>
    if inputs.excludeTests.contains (.str entry.name) then
      some (.skip entry .excluded s!"validation '{entry.name}' is excluded by name")
    else
      match inputs.capability.filter fun context ↦ !requirementsSatisfied entry.requires context with
      | some context =>
        let required := ", ".intercalate entry.requires
        let required := if required = "" then "(none)" else required
        some (.skip entry .capabilityRequirement s!"requires {required} (context: {context})")
      | none => resolveByLabels
where
  resolveByLabels : Option ResolvedEntry :=
    if (inputs.includeLabels.filter fun label ↦ !entry.labels.contains label) ≠ [] then
      some (.skip entry .excluded (s!"validation '{entry.name}' does not match all selected labels: " ++
        ", ".intercalate (sortedNames inputs.includeLabels)))
    else
      match sortedNames (entry.labels.filter fun label ↦ inputs.excludeLabels.contains (.str label)) with
      | [] => resolveByStep
      | matched =>
        some (.skip entry .excluded (s!"validation '{entry.name}' is excluded by label: " ++
          ", ".intercalate matched))
  resolveByStep : Option ResolvedEntry :=
    match entry.step.filter (· != "") with
    | none => none
    | some step =>
      if inputs.skippedSteps.contains step then
        some (.skip entry .stepSkipped s!"step '{step}' is configured but skipped (skip: true)")
      else if (inputs.stepPhases.get? step).isNone then
        some (.skip entry .stepNotConfigured s!"step '{step}' is not configured for this run")
      else none

/-- The decisions once the bound step is known to have an output. -/
def resolveByPhase (entry : ValidationEntry) : Except PyError ResolvedEntry :=
  let phase := getEntryPhase entry inputs.stepPhases.get?
  if !inputs.requestedPhases.contains phase then
    .ok (.skip entry .phaseNotRequested s!"phase '{phase}' was not requested")
  else
    match renderParams host inputs.renderContext entry with
    | .error message =>
      .ok (.error entry .templateRenderFailed s!"failed to render validation parameters: {message}")
    | .ok rendered =>
      match entry.step.filter (· != "") with
      | none => .ok { entry, renderedParams := some (finishParams entry none rendered) }
      | some step => do
        let output ← inputs.stepOutputs.getItem step
        return { entry, renderedParams := some (finishParams entry (some output) rendered) }

/-- One pass of the loop of `resolve_entries`. -/
def resolveEntry (entry : ValidationEntry) : Except PyError ResolvedEntry :=
  match resolveByConfig host inputs entry with
  | some record => .ok record
  | none =>
    match entry.step.filter (· != "") with
    | none => resolveByPhase host inputs entry
    | some step => do
      if ← inputs.stepOutputs.contains step then resolveByPhase host inputs entry
      else return .skip entry .stepNoOutput s!"step '{step}' did not produce output"

/-- A resolved entry for every input entry, in input order. -/
def resolveEntries (entries : List ValidationEntry) : Except PyError (List ResolvedEntry) :=
  entries.mapM (resolveEntry host inputs)

/-! ## What resolution guarantees -/

/-- The record carries its entry and is either ready for execution or terminal, and then skipped or
an error: nothing was executed yet. -/
structure ResolvedEntry.Decides (record : ResolvedEntry) (entry : ValidationEntry) : Prop where
  entry : record.entry = entry
  decided : record.isReady = false → record.IsTerminal
  unexecuted : record.isReady = false → record.state = some .skipped ∨ record.state = some .error

theorem decides_skip (entry : ValidationEntry) (reason : SkipReason) (message : String) :
    (ResolvedEntry.skip entry reason message).Decides entry :=
  ⟨rfl, fun _ ↦ ResolvedEntry.isTerminal_skip entry reason message, fun _ ↦ Or.inl rfl⟩

theorem decides_error (entry : ValidationEntry) (reason : ErrorReason) (message : String) :
    (ResolvedEntry.error entry reason message).Decides entry :=
  ⟨rfl, fun _ ↦ ResolvedEntry.isTerminal_error entry reason message, fun _ ↦ Or.inr rfl⟩

theorem decides_ready (entry : ValidationEntry) (params : Items) :
    ({ entry, renderedParams := some params } : ResolvedEntry).Decides entry := by
  have hready : ({ entry, renderedParams := some params } : ResolvedEntry).isReady = true := rfl
  exact ⟨rfl, fun h ↦ absurd h (by simp [hready]), fun h ↦ absurd h (by simp [hready])⟩

variable {host inputs}

theorem resolveByStep_decides {entry : ValidationEntry} {record : ResolvedEntry}
    (h : resolveByConfig.resolveByStep inputs entry = some record) : record.Decides entry := by
  unfold resolveByConfig.resolveByStep at h
  split at h
  · cases h
  · split at h
    · cases h
      exact decides_skip ..
    · split at h
      · cases h
        exact decides_skip ..
      · cases h

theorem resolveByLabels_decides {entry : ValidationEntry} {record : ResolvedEntry}
    (h : resolveByConfig.resolveByLabels inputs entry = some record) : record.Decides entry := by
  unfold resolveByConfig.resolveByLabels at h
  split at h
  · cases h
    exact decides_skip ..
  · split at h
    · exact resolveByStep_decides h
    · cases h
      exact decides_skip ..

theorem resolveByConfig_decides {entry : ValidationEntry} {record : ResolvedEntry}
    (h : resolveByConfig host inputs entry = some record) : record.Decides entry := by
  unfold resolveByConfig at h
  split at h
  · cases h
    exact decides_error ..
  · split at h
    · cases h
      exact decides_skip ..
    · split at h
      · cases h
        exact decides_skip ..
      · exact resolveByLabels_decides h

theorem resolveByPhase_decides {entry : ValidationEntry} {record : ResolvedEntry}
    (h : resolveByPhase host inputs entry = .ok record) : record.Decides entry := by
  unfold resolveByPhase at h
  simp only at h
  split at h
  · cases h
    exact decides_skip ..
  · split at h
    · cases h
      exact decides_error ..
    · split at h
      · cases h
        exact decides_ready ..
      · cases hget : inputs.stepOutputs.getItem _ with
        | error e => rw [hget] at h; cases h
        | ok output =>
          rw [hget] at h
          cases h
          exact decides_ready ..

/-- Resolution decides every entry. -/
theorem resolveEntry_decides {entry : ValidationEntry} {record : ResolvedEntry}
    (h : resolveEntry host inputs entry = .ok record) : record.Decides entry := by
  unfold resolveEntry at h
  split at h
  · rename_i decided hconfig
    cases h
    exact resolveByConfig_decides hconfig
  · split at h
    · exact resolveByPhase_decides h
    · cases hcontains : inputs.stepOutputs.contains _ with
      | error e => rw [hcontains] at h; cases h
      | ok found =>
        rw [hcontains] at h
        cases found with
        | true => exact resolveByPhase_decides h
        | false =>
          cases h
          exact decides_skip ..

/-- Looking a step up in a mapping of outputs never raises. -/
theorem resolveEntry_isOk (houtputs : inputs.stepOutputs.isDict = true) (entry : ValidationEntry) :
    ∃ record, resolveEntry host inputs entry = .ok record := by
  obtain ⟨items, hitems⟩ : ∃ items, inputs.stepOutputs = .dict items := by
    cases houts : inputs.stepOutputs <;> simp_all [Value.isDict]
  have hphase : (∀ step, entry.step.filter (· != "") = some step →
      (items.any fun item ↦ item.1 == .str step) = true) →
        ∃ record, resolveByPhase host inputs entry = .ok record := by
    intro hstep
    unfold resolveByPhase
    simp only
    split
    · exact ⟨_, rfl⟩
    · split
      · exact ⟨_, rfl⟩
      · split
        · exact ⟨_, rfl⟩
        · rename_i step hsome
          have hfound := hstep step hsome
          cases hlookup : items.lookup (Scalar.str step) with
          | none =>
            rw [List.lookup_eq_none_iff] at hlookup
            obtain ⟨item, hmem, heq⟩ := List.any_eq_true.mp hfound
            have := hlookup item hmem
            simp_all
          | some output =>
            simp only [hitems, Value.getItem, hlookup]
            exact ⟨_, rfl⟩
  unfold resolveEntry
  split
  · exact ⟨_, rfl⟩
  · split
    · rename_i hnone
      exact hphase fun step hsome ↦ by rw [hnone] at hsome; cases hsome
    · rename_i step hsome
      simp only [hitems, Value.contains]
      cases hany : items.any fun item ↦ item.1 == Scalar.str step with
      | true =>
        apply hphase
        intro other hother
        rw [hsome] at hother
        cases hother
        exact hany
      | false => exact ⟨_, rfl⟩

/-- A resolved list decides its entries one by one, in order. -/
theorem resolveEntries_decides {entries : List ValidationEntry} {records : List ResolvedEntry}
    (h : resolveEntries host inputs entries = .ok records) :
    List.Forall₂ (fun entry record ↦ record.Decides entry) entries records :=
  (mapM_eq_ok_iff.mp h).imp fun _ _ ↦ resolveEntry_decides

theorem resolveEntries_isOk (houtputs : inputs.stepOutputs.isDict = true)
    (entries : List ValidationEntry) :
    ∃ records, resolveEntries host inputs entries = .ok records :=
  exists_mapM_ok fun entry _ ↦ resolveEntry_isOk houtputs entry

end Resolve

end IsvValidation.Resolution
