import IsvValidation.Orchestrator.Loop

/-!
# Capability gates

Whether a step runs is decided before the run, from all validation entries at once; whether an entry
runs is decided later, phase by phase, and with an order of its own. A step which is switched off on
behalf of its entries costs none of them: each is malformed, excluded by name or filtered by the
capability wherever it is resolved, before the state of its step is looked at.
-/

namespace IsvValidation.Orchestrator

open Config Host Library Resolution

/-! ## What the gates decide -/

/-- The capability of a run meets a list of requirements. An empty list asks for nothing, and a run
without a capability filters nothing. -/
def Meets (capability : Option String) (requires : List String) : Prop :=
  ∀ context ∈ capability, requires = [] ∨ context ∈ requires

/-- The requirements of the step itself are not met. -/
def GatedByRequires (capability : Option String) (step : StepConfig) : Prop :=
  ¬ Meets capability step.requires

/-- Entries are bound to the step, and the requirements of none of them are met. -/
def GatedByEntries (capability : Option String) (entries : List ValidationEntry)
    (step : StepConfig) : Prop :=
  (∃ entry ∈ entries, entry.step = some step.name) ∧
    ∀ entry ∈ entries, entry.step = some step.name → ¬ Meets capability entry.requires

theorem meets_none (requires : List String) : Meets none requires := by
  intro context h
  cases h

theorem requirementsSatisfied_iff {requires : List String} {context : String} :
    requirementsSatisfied requires context = true ↔ Meets (some context) requires := by
  simp [requirementsSatisfied, Meets]

theorem requirementsSatisfied_eq_false {requires : List String} {context : String} :
    requirementsSatisfied requires context = false ↔ ¬ Meets (some context) requires := by
  rw [← requirementsSatisfied_iff, Bool.not_eq_true]

theorem not_meets_iff {capability : Option String} {requires : List String} :
    ¬ Meets capability requires ↔
      ∃ context, capability = some context ∧ requirementsSatisfied requires context = false := by
  match capability with
  | none => simp [meets_none]
  | some context => simp [requirementsSatisfied_eq_false]

/-- Without requirements of its own, a step is never gated by them. -/
theorem GatedByRequires.requires_ne_nil {capability : Option String} {step : StepConfig}
    (h : GatedByRequires capability step) : step.requires ≠ [] := by
  intro hnil
  exact h fun _ _ ↦ Or.inl hnil

theorem gatedByCapability_iff {entries : List ValidationEntry} {context : String}
    {step : StepConfig} :
    gatedByCapability entries context step = true ↔
      GatedByRequires (some context) step ∨ GatedByEntries (some context) entries step := by
  have hown : (!step.requires.isEmpty && !requirementsSatisfied step.requires context) = true ↔
      GatedByRequires (some context) step := by
    rw [Bool.and_eq_true, Bool.not_eq_true', Bool.not_eq_true', requirementsSatisfied_eq_false]
    exact ⟨fun h ↦ h.2, fun h ↦ ⟨by simpa using h.requires_ne_nil, h⟩⟩
  have hbound : (!(entries.filter (·.step = some step.name)).isEmpty &&
      (entries.filter (·.step = some step.name)).all fun entry ↦
        !requirementsSatisfied entry.requires context) = true ↔
      GatedByEntries (some context) entries step := by
    simp [GatedByEntries, requirementsSatisfied_eq_false, or_iff_not_imp_left]
  unfold gatedByCapability
  by_cases h : (!step.requires.isEmpty && !requirementsSatisfied step.requires context) = true
  · rw [if_pos h]
    exact ⟨fun _ ↦ Or.inl (hown.mp h), fun _ ↦ rfl⟩
  · rw [if_neg h, hbound]
    exact ⟨Or.inr, fun hgated ↦ hgated.resolve_left fun hrequires ↦ h (hown.mpr hrequires)⟩

/-! ## How the entries of a gated step are resolved -/

/-- The record says that the entry is malformed, excluded by name or filtered by the capability. -/
def LeftOut (entry : ValidationEntry) (record : ResolvedEntry) : Prop :=
  (∃ message, record = .error entry .invalidConfig message) ∨
    record = .skip entry .excluded s!"validation '{entry.name}' is excluded by name" ∨
    ∃ message, record = .skip entry .capabilityRequirement message

/-- Such a record never blames the step, and nothing of it is executed. -/
theorem LeftOut.never {entry : ValidationEntry} {record : ResolvedEntry}
    (h : LeftOut entry record) :
    record.skipReason ≠ some .stepSkipped ∧ record.isReady = false := by
  match h with
  | Or.inl ⟨message, heq⟩ =>
    rw [heq]
    exact ⟨by simp [ResolvedEntry.error], rfl⟩
  | Or.inr (Or.inl heq) =>
    rw [heq]
    exact ⟨by simp [ResolvedEntry.skip], rfl⟩
  | Or.inr (Or.inr ⟨message, heq⟩) =>
    rw [heq]
    exact ⟨by simp [ResolvedEntry.skip], rfl⟩

section Resolution

variable (host : Runtime) (inputs : ResolveInputs)

/-- The filter by capability comes before every look at labels and steps. -/
theorem resolveEntry_leftOut {entry : ValidationEntry}
    (h : ¬ Meets inputs.capability entry.requires) :
    ∃ record, resolveEntry host inputs entry = .ok record ∧ LeftOut entry record := by
  obtain ⟨context, hcontext, hunmet⟩ := not_meets_iff.mp h
  have hconfig : ∃ record, resolveByConfig host inputs entry = some record ∧
      LeftOut entry record := by
    unfold resolveByConfig
    cases validateEntryShape host entry with
    | some message => exact ⟨_, rfl, Or.inl ⟨message, rfl⟩⟩
    | none =>
      by_cases hexcluded : inputs.excludeTests.contains (.str entry.name) = true
      · simp only [if_pos hexcluded]
        exact ⟨_, rfl, Or.inr (Or.inl rfl)⟩
      · have hfilter : (inputs.capability.filter fun context ↦
            !requirementsSatisfied entry.requires context) = some context := by
          rw [hcontext]
          simp [Option.filter, hunmet]
        simp only [if_neg hexcluded, hfilter]
        exact ⟨_, rfl, Or.inr (Or.inr ⟨_, rfl⟩)⟩
  obtain ⟨record, hrecord, hleft⟩ := hconfig
  exact ⟨record, by rw [resolveEntry, hrecord], hleft⟩

/-- Every list of entries which resolves leaves out those of a gated step, in their places. -/
theorem resolveEntries_leftOut {entries resolved : List ValidationEntry}
    {records : List ResolvedEntry} {step : StepConfig}
    (hgated : GatedByEntries inputs.capability entries step) (hsub : resolved ⊆ entries)
    (h : resolveEntries host inputs resolved = .ok records) :
    List.Forall₂ (fun entry record ↦ entry.step = some step.name → LeftOut entry record)
      resolved records := by
  have hone := mapM_eq_ok_iff.mp h
  rw [List.forall₂_iff_zip] at hone ⊢
  refine ⟨hone.1, fun {entry record} hmem hstep ↦ ?_⟩
  have ⟨decided, hdecided, hleft⟩ := resolveEntry_leftOut host inputs
    (hgated.2 entry (hsub (List.of_mem_zip hmem).1) hstep)
  have heq := (hone.2 hmem).symm.trans hdecided
  rw [Except.ok.injEq] at heq
  exact heq ▸ hleft

end Resolution

/-! ## The gates of a run -/

/-- The gates switch off the steps whose own requirements, or those of all their entries, are not
met; the others keep their places unchanged. An entry of a step of the second kind is resolved, with
the same capability, as malformed, excluded by name or filtered by the capability. -/
theorem applyCapabilityStepGates_agrees (host : Runtime) (steps : List StepConfig)
    (entries : List ValidationEntry) (capability : Option String) :
    List.Forall₂ (fun step gated ↦
        (GatedByRequires capability step ∨ GatedByEntries capability entries step →
          gated = { step with skip := true }) ∧
        (¬ (GatedByRequires capability step ∨ GatedByEntries capability entries step) →
          gated = step))
      steps (applyCapabilityStepGates steps entries capability) ∧
    ∀ step ∈ steps, GatedByEntries capability entries step →
      ∀ inputs : ResolveInputs, inputs.capability = capability →
        (∀ entry ∈ entries, entry.step = some step.name →
          ∃ record, resolveEntry host inputs entry = .ok record ∧ LeftOut entry record ∧
            record.skipReason ≠ some .stepSkipped ∧ record.isReady = false) ∧
        ∀ resolved ⊆ entries, ∀ records, resolveEntries host inputs resolved = .ok records →
          List.Forall₂ (fun entry record ↦ entry.step = some step.name → LeftOut entry record)
            resolved records := by
  constructor
  · match capability with
    | none =>
      rw [applyCapabilityStepGates, List.forall₂_same]
      intro step _
      refine ⟨fun h ↦ ?_, fun _ ↦ rfl⟩
      match h with
      | Or.inl hrequires => exact absurd (meets_none _) hrequires
      | Or.inr ⟨⟨entry, hmem, hstep⟩, hunmet⟩ =>
        exact absurd (meets_none _) (hunmet entry hmem hstep)
    | some context =>
      rw [applyCapabilityStepGates, List.forall₂_map_right_iff, List.forall₂_same]
      intro step _
      rw [← gatedByCapability_iff]
      exact ⟨fun h ↦ if_pos h, fun h ↦ if_neg h⟩
  · intro step _ hgated inputs hcapability
    subst hcapability
    refine ⟨fun entry hmem hstep ↦ ?_, fun resolved hsub records h ↦
      resolveEntries_leftOut host inputs hgated hsub h⟩
    have ⟨record, hrecord, hleft⟩ := resolveEntry_leftOut host inputs (hgated.2 entry hmem hstep)
    exact ⟨record, hrecord, hleft, hleft.never⟩

end IsvValidation.Orchestrator
