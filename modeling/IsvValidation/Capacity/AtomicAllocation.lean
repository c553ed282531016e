import IsvValidation.Capacity.TopologyBlockCheck

/-!
# What a passed check of a topology block says

The check passes exactly when the flags, the counts and the records satisfy its invariants. These say
that the block was allocated as one unit unless some record is of a kind which is not counted.
-/

namespace IsvValidation.Capacity

open Config Storage

/-! ## Values -/

theorem same_str {value : Json} {text : String} : same value (.str text) = true ↔ value = .str text := by
  cases value <;> simp [same, number?]

theorem isNonEmptyString_iff {printer : Printer} {value : Json} :
    isNonEmptyString printer value = true ↔
      ∃ text, value = .str text ∧ printer.strip text ≠ "" := by
  cases value <;> simp [isNonEmptyString]

theorem nonNegativeInt?_eq_some {value : Json} {count : ℕ} :
    nonNegativeInt? value = some count ↔ value = .int count := by
  unfold nonNegativeInt?
  split
  · simp
  · next hne =>
    simp only [reduceCtorEq, false_iff]
    intro heq
    exact hne count heq

/-- Members of a set of strings. -/
theorem mem_distinct {values : List Json} (h : ∀ value ∈ values, ∃ text, value = .str text)
    {value : Json} : value ∈ distinct values ↔ value ∈ values := by
  induction values with
  | nil => rfl
  | cons first rest ih =>
    have ⟨text, hfirst⟩ := h first List.mem_cons_self
    have hrest := ih fun other hother ↦ h other (List.mem_cons_of_mem first hother)
    subst hfirst
    rw [distinct, List.mem_cons, List.mem_cons, List.mem_filter, hrest]
    constructor
    · exact Or.imp_right And.left
    · intro hvalue
      by_cases heq : value = .str text
      · exact .inl heq
      · have hmem := hvalue.resolve_left heq
        have ⟨other, hother⟩ := h value (List.mem_cons_of_mem _ hmem)
        refine .inr ⟨hmem, ?_⟩
        rw [hother, Bool.not_eq_true', Bool.eq_false_iff]
        exact fun hsame ↦ heq (hother.trans (same_str.mp hsame).symm)

/-- A set of strings has one member when all of them are equal. -/
theorem setOf_single {values : List Json} (hne : values ≠ [])
    (h : ∀ value ∈ values, ∃ text, value = .str text) :
    ∃ members, setOf values = .ok members ∧
      (members.length = 1 ↔ ∃ text, ∀ value ∈ values, value = .str text) := by
  have hhashable : (values.find? fun value ↦ !hashable value) = none := by
    rw [List.find?_eq_none]
    intro value hvalue
    have ⟨text, heq⟩ := h value hvalue
    rw [heq]
    simp [hashable]
  refine ⟨distinct values, by rw [setOf, hhashable], ?_⟩
  have hmem : ∀ value, value ∈ distinct values ↔ value ∈ values := fun value ↦ mem_distinct h
  constructor
  · intro hlength
    have ⟨member, hmember⟩ := List.length_eq_one_iff.mp hlength
    have hvalues : ∀ value ∈ values, value = member := by
      intro value hvalue
      rw [← hmem, hmember] at hvalue
      exact List.mem_singleton.mp hvalue
    have ⟨first, hfirst⟩ := List.exists_mem_of_ne_nil values hne
    have ⟨text, htext⟩ := h first hfirst
    refine ⟨text, fun value hvalue ↦ ?_⟩
    rw [hvalues value hvalue, ← hvalues first hfirst, htext]
  · rintro ⟨text, htext⟩
    match values with
    | first :: rest =>
      have hfirst := htext first List.mem_cons_self
      subst hfirst
      rw [distinct, List.length_cons, Nat.add_eq_right, List.length_eq_zero_iff,
        List.filter_eq_nil_iff]
      intro value hvalue
      have hrest : value ∈ rest :=
        (mem_distinct fun other hother ↦ h other (List.mem_cons_of_mem _ hother)).mp hvalue
      rw [htext value (List.mem_cons_of_mem _ hrest)]
      simp [sameMember, same]

/-! ## The invariants of the check -/

/-- The amounts of each kind which were requested, allocated and recorded. -/
def Amounts (block : Fields) (resources : List Fields) (amount : String → ℕ) : Prop :=
  ∃ requested allocated, get block "requested" = .obj requested ∧
    get block "allocated" = .obj allocated ∧
    ∀ name ∈ countFields, (requested.lookup name).getD (.int 0) = .int (amount name) ∧
      (allocated.lookup name).getD (.int 0) = .int (amount name) ∧
      resourceCount resources name = amount name

/-- All records have the same string in a field. -/
def Shared (resources : List Fields) (field : String) : Prop :=
  ∃ text, ∀ resource ∈ resources, get resource field = .str text

/-- What the check asks of a block and its records. -/
structure Invariants (printer : Printer) (block : Fields) (resources : List Fields) : Prop where
  ids : ∀ key ∈ blockKeys, isNonEmptyString printer (get block key) = true
  atomic : isTrue (get block "allocated_as_unit") = true ∧
    isFalse (get block "partial_allocation") = true
  counts : ∃ amount, Amounts block resources amount
  fields : ∀ resource ∈ resources, ∀ field ∈ resourceFields,
    isNonEmptyString printer (get resource field) = true
  members : ∀ resource ∈ resources, get resource "tenant_id" = get block "tenant_id" ∧
    get resource "topology_block_id" = get block "block_id"
  homogeneous : isTrue (get block "homogeneous") = true ∧ Shared resources "performance_domain"
  isolated : isTrue (get block "isolation_enforced") = true ∧ Shared resources "isolation_boundary"

section Judge

variable {printer : Printer} {block : Fields} {resources : List Fields}

theorem countFailures_eq_nil {requested allocated : Fields} {name : String} :
    countFailures requested allocated resources name = [] ↔
      ∃ amount : ℕ, (requested.lookup name).getD (.int 0) = .int amount ∧
        (allocated.lookup name).getD (.int 0) = .int amount ∧
        resourceCount resources name = amount := by
  simp only [← nonNegativeInt?_eq_some]
  unfold countFailures
  cases hreq : nonNegativeInt? ((requested.lookup name).getD (.int 0)) with
  | none => simp
  | some req =>
    cases hgot : nonNegativeInt? ((allocated.lookup name).getD (.int 0)) with
    | none => simp
    | some got =>
      simp only [Option.some.injEq]
      constructor
      · intro h
        have ⟨hfirst, hsecond⟩ := List.append_eq_nil_iff.mp h
        by_cases heq : got = req
        · by_cases hcount : got = resourceCount resources name
          · exact ⟨got, heq.symm, rfl, hcount.symm⟩
          · rw [if_pos hcount] at hsecond
            exact absurd hsecond (List.cons_ne_nil _ _)
        · rw [if_pos heq] at hfirst
          exact absurd hfirst (List.cons_ne_nil _ _)
      · rintro ⟨amount, rfl, rfl, hcount⟩
        simp [hcount]

theorem validateCounts_eq_nil :
    validateCounts (get block "requested") (get block "allocated") resources = [] ↔
      ∃ amount, Amounts block resources amount := by
  unfold Amounts
  match get block "requested", get block "allocated" with
  | .obj requested, .obj allocated =>
    simp only [validateCounts, List.flatMap_eq_nil_iff, countFailures_eq_nil, Json.obj.injEq]
    constructor
    · intro h
      choose! amount hamount using h
      exact ⟨amount, requested, allocated, rfl, rfl, hamount⟩
    · rintro ⟨amount, _, _, rfl, rfl, hamount⟩ name hname
      exact ⟨amount name, hamount name hname⟩
  | .obj _, .null | .obj _, .bool _ | .obj _, .int _ | .obj _, .float _ | .obj _, .nonFinite _
  | .obj _, .str _ | .obj _, .arr _ | .null, _ | .bool _, _ | .int _, _ | .float _, _
  | .nonFinite _, _ | .str _, _ | .arr _, _ => simp [validateCounts]

theorem validateResourceMembership_eq_nil {blockId tenantId : String}
    (hblock : get block "block_id" = .str blockId)
    (htenant : get block "tenant_id" = .str tenantId) :
    validateResourceMembership printer resources (get block "block_id") (get block "tenant_id") = [] ↔
      (∀ resource ∈ resources, ∀ field ∈ resourceFields,
        isNonEmptyString printer (get resource field) = true) ∧
      ∀ resource ∈ resources, get resource "tenant_id" = get block "tenant_id" ∧
        get resource "topology_block_id" = get block "block_id" := by
  have hrecord : ∀ resource, recordFailures printer (.str blockId) (.str tenantId) resource = [] ↔
      (∀ field ∈ resourceFields, isNonEmptyString printer (get resource field) = true) ∧
        get resource "tenant_id" = .str tenantId ∧
        get resource "topology_block_id" = .str blockId := by
    intro resource
    have hite : ∀ (condition : Bool) (text : String),
        (if condition then [] else [text]) = [] ↔ condition = true := by
      intro condition text
      cases condition <;> simp
    rw [recordFailures, List.append_eq_nil_iff, List.append_eq_nil_iff, List.map_eq_nil_iff,
      List.filter_eq_nil_iff, hite, hite, same_str, same_str, and_assoc]
    simp
  rw [hblock, htenant]
  simp only [validateResourceMembership, List.flatMap_eq_nil_iff, hrecord, forall_and]

/-- A field of records with a string in it takes one value when the records share it. -/
theorem setOf_shared {field : String} (hne : resources ≠ [])
    (h : ∀ resource ∈ resources, isNonEmptyString printer (get resource field) = true) :
    ∃ members, setOf (resources.map (get · field)) = .ok members ∧
      (members.length = 1 ↔ Shared resources field) := by
  have hstrings : ∀ value ∈ resources.map (get · field), ∃ text, value = .str text := by
    intro value hvalue
    have ⟨resource, hresource, heq⟩ := List.mem_map.mp hvalue
    have ⟨text, htext, _⟩ := isNonEmptyString_iff.mp (h resource hresource)
    exact ⟨text, heq ▸ htext⟩
  have hmap : resources.map (get · field) ≠ [] := fun hnil ↦ hne (List.map_eq_nil_iff.mp hnil)
  have ⟨members, hset, hlength⟩ := setOf_single hmap hstrings
  refine ⟨members, hset, hlength.trans ?_⟩
  simp only [Shared, List.forall_mem_map]

/-- The check finds nothing wrong exactly when the invariants hold. -/
theorem judge_iff (hne : resources ≠ []) :
    (∃ subtests, judge printer block resources = .ok ([], subtests)) ↔
      Invariants printer block resources := by
  have hids : (blockKeys.filter fun key ↦ !isNonEmptyString printer (get block key)) = [] ↔
      ∀ key ∈ blockKeys, isNonEmptyString printer (get block key) = true := by
    rw [List.filter_eq_nil_iff]
    simp
  have hflag : ∀ (condition : Bool) (text : String),
      (if condition then [] else [text]) = [] ↔ condition = true := by
    intro condition text
    cases condition <;> simp
  constructor
  · rintro ⟨subtests, h⟩
    unfold judge at h
    simp only [bind, Except.bind, pure, Except.pure] at h
    cases hperformance : setOf (resources.map (get · "performance_domain")) with
    | error => simp [hperformance] at h
    | ok domains =>
      cases hisolation : setOf (resources.map (get · "isolation_boundary")) with
      | error => simp [hperformance, hisolation] at h
      | ok boundaries =>
        simp only [hperformance, hisolation, Except.ok.injEq, Prod.mk.injEq,
          List.append_eq_nil_iff, List.map_eq_nil_iff, hids, hflag] at h
        have ⟨⟨⟨⟨⟨⟨hkeys, hatomic⟩, hcounts⟩, hmembers⟩, hhomogeneous⟩, hisolated⟩, _⟩ := h
        have ⟨blockId, hblock, _⟩ := isNonEmptyString_iff.mp (hkeys "block_id" (by decide))
        have ⟨tenantId, htenant, _⟩ := isNonEmptyString_iff.mp (hkeys "tenant_id" (by decide))
        have ⟨hfields, hsame⟩ := (validateResourceMembership_eq_nil hblock htenant).mp hmembers
        have ⟨_, hdomains, hdomain⟩ := setOf_shared hne fun resource hresource ↦
          hfields resource hresource "performance_domain" (by decide)
        have ⟨_, hboundaries, hboundary⟩ := setOf_shared hne fun resource hresource ↦
          hfields resource hresource "isolation_boundary" (by decide)
        rw [hperformance, Except.ok.injEq] at hdomains
        rw [hisolation, Except.ok.injEq] at hboundaries
        rw [beq_iff_eq, hdomains, hdomain] at hhomogeneous
        rw [beq_iff_eq, hboundaries, hboundary] at hisolated
        exact ⟨hkeys, Bool.and_eq_true_iff.mp hatomic, validateCounts_eq_nil.mp hcounts, hfields, hsame, hhomogeneous,
          hisolated⟩
  · intro h
    have ⟨blockId, hblock, _⟩ := isNonEmptyString_iff.mp (h.ids "block_id" (by decide))
    have ⟨tenantId, htenant, _⟩ := isNonEmptyString_iff.mp (h.ids "tenant_id" (by decide))
    have hmembers := (validateResourceMembership_eq_nil hblock htenant).mpr ⟨h.fields, h.members⟩
    have ⟨domains, hdomains, hdomain⟩ := setOf_shared hne fun resource hresource ↦
      h.fields resource hresource "performance_domain" (by decide)
    have ⟨boundaries, hboundaries, hboundary⟩ := setOf_shared hne fun resource hresource ↦
      h.fields resource hresource "isolation_boundary" (by decide)
    have hcounts := validateCounts_eq_nil.mpr h.counts
    unfold judge
    simp only [bind, Except.bind, pure, Except.pure, hdomains, hboundaries, hmembers, hcounts,
      hids.mpr h.ids, h.atomic.1, h.atomic.2, h.homogeneous.1, h.isolated.1,
      hdomain.mpr h.homogeneous.2, hboundary.mpr h.isolated.2]
    exact ⟨_, rfl⟩

/-- The block and the records which a configuration hands to the check. -/
def blockOf (config : CheckConfig) : Option (Fields × List Fields) :=
  match config.stepOutput with
  | .obj stepOutput =>
    match get stepOutput "topology_block" with
    | .obj block => (records? (get block "resources")).map fun resources ↦ (block, resources)
    | _ => none
  | _ => none

/-- What the check asks besides the invariants: a step which reports success, and enough records. -/
def Expected (printer : Printer) (config : CheckConfig) (resources : List Fields) : Prop :=
  (∃ stepOutput, config.stepOutput = .obj stepOutput ∧ (get stepOutput "success").truthy = true) ∧
    ∃ minResources, parsePositiveInt printer "min_resources" config.minResources =
      .ok (.ok minResources) ∧ minResources ≤ resources.length

theorem one_le_of_parsePositiveInt {key : String} {raw : Json} {value : ℤ}
    (h : parsePositiveInt printer key raw = .ok (.ok value)) : 1 ≤ value := by
  unfold parsePositiveInt at h
  split at h
  · simp at h
  · split at h
    · simp at h
    · simp at h
    · split_ifs at h with hlt
      · simp at h
      · simp only [Except.ok.injEq] at h
        omega

/-- The check passes exactly when the step has succeeded, there are enough records, and the
invariants hold. -/
theorem run_isPassed_iff {config : CheckConfig} :
    (∃ result, run printer config = .ok result ∧ result.isPassed = true) ↔
      ∃ block resources, blockOf config = some (block, resources) ∧
        Expected printer config resources ∧ Invariants printer block resources := by
  have hjudge : ∀ block resources minResources,
      parsePositiveInt printer "min_resources" config.minResources = .ok (.ok minResources) →
      minResources ≤ (resources.length : ℤ) →
        ((∃ subtests, judge printer block resources = .ok ([], subtests)) ↔
          Invariants printer block resources) := by
    intro block resources minResources hmin hle
    apply judge_iff
    intro hnil
    have hone := one_le_of_parsePositiveInt hmin
    rw [hnil, List.length_nil] at hle
    omega
  unfold run blockOf Expected
  cases hstep : config.stepOutput with
  | obj stepOutput =>
    simp only [bind, Except.bind, pure, Except.pure]
    by_cases hsuccess : (get stepOutput "success").truthy = true
    · rw [hsuccess, Bool.not_true, if_neg Bool.false_ne_true]
      cases hblock : get stepOutput "topology_block" with
      | obj block =>
        rcases hmin : parsePositiveInt printer "min_resources" config.minResources with
          error | error | minResources
        · simp [hsuccess]
        · simp [hsuccess, CheckRun.isPassed]
        · cases hrecords : records? (get block "resources") with
          | none => simp [hrecords, CheckRun.isPassed]
          | some resources =>
            by_cases hle : minResources ≤ (resources.length : ℤ)
            · have hiff := hjudge block resources minResources hmin hle
              have hlt : ¬ (resources.length : ℤ) < minResources := by omega
              rcases hjudged : judge printer block resources with error | ⟨failures, subtests⟩
              · rw [hjudged] at hiff
                simp [hrecords, hlt, hle, hsuccess, hjudged, ← hiff, CheckRun.isPassed]
              · rw [hjudged] at hiff
                cases failures with
                | nil => simp [hrecords, hlt, hle, hsuccess, hjudged, ← hiff, CheckRun.isPassed]
                | cons _ _ => simp [hrecords, hlt, hle, hsuccess, hjudged, ← hiff, CheckRun.isPassed]
            · have hlt : (resources.length : ℤ) < minResources := by omega
              simp [hrecords, hlt, hsuccess, CheckRun.isPassed]
      | null | bool _ | int _ | float _ | nonFinite _ | str _ | arr _ =>
        simp [CheckRun.isPassed]
    · simp [hsuccess, CheckRun.isPassed]
  | null | bool _ | int _ | float _ | nonFinite _ | str _ | arr _ =>
    simp [pure, Except.pure, CheckRun.isPassed]

end Judge

/-! ## Atomic allocation -/

/-- A record is of a kind which is counted. -/
def Listed (resource : Fields) : Prop :=
  ∃ name ∈ countFields, get resource "resource_type" = .str name

/-- A block was allocated as one unit: the amounts agree and cover all records, and the records belong
to the block and its tenant, to one performance domain and within one isolation boundary. -/
structure AllocatedAtomically (printer : Printer) (block : Fields) (resources : List Fields) :
    Prop where
  counts : ∃ amount, Amounts block resources amount ∧
    (countFields.map amount).sum = resources.length
  blockId : isNonEmptyString printer (get block "block_id") = true
  tenantId : isNonEmptyString printer (get block "tenant_id") = true
  members : ∀ resource ∈ resources, get resource "topology_block_id" = get block "block_id" ∧
    get resource "tenant_id" = get block "tenant_id"
  performance : Shared resources "performance_domain"
  isolation : Shared resources "isolation_boundary"

/-- Every record is counted once when its kind is listed, and not otherwise. -/
theorem sum_resourceCount (resources : List Fields) :
    (countFields.map (resourceCount resources)).sum =
      resources.countP fun resource ↦
        countFields.any fun name ↦ same (get resource "resource_type") (.str name) := by
  induction resources with
  | nil => rfl
  | cons resource rest ih =>
    have hone : (countFields.map fun name ↦
        if same (get resource "resource_type") (.str name) then 1 else 0).sum =
          if countFields.any fun name ↦ same (get resource "resource_type") (.str name) then 1
          else 0 := by
      by_cases hcompute : get resource "resource_type" = .str "compute"
      · rw [hcompute]
        decide
      by_cases hnetwork : get resource "resource_type" = .str "network"
      · rw [hnetwork]
        decide
      by_cases hstorage : get resource "resource_type" = .str "storage"
      · rw [hstorage]
        decide
      · simp [countFields, same_str, hcompute, hnetwork, hstorage]
    have hcount : ∀ name, resourceCount (resource :: rest) name = resourceCount rest name +
        if same (get resource "resource_type") (.str name) then 1 else 0 := fun name ↦
      List.countP_cons
    rw [List.countP_cons, ← ih, ← hone]
    simp only [countFields, hcount, List.map_cons, List.map_nil, List.sum_cons, List.sum_nil]
    omega

/-- The amounts cover all records when every record is of a kind which is counted. -/
theorem sum_amount_iff {block : Fields} {resources : List Fields} {amount : String → ℕ}
    (h : Amounts block resources amount) :
    (countFields.map amount).sum = resources.length ↔ ∀ resource ∈ resources, Listed resource := by
  have ⟨_, _, _, _, hnames⟩ := h
  have hamount : countFields.map amount = countFields.map (resourceCount resources) :=
    List.map_congr_left fun name hname ↦ (hnames name hname).2.2.symm
  rw [hamount, sum_resourceCount, List.countP_eq_length]
  simp only [List.any_eq_true, same_str, Listed]

/-- A passed check says that the block was allocated as one unit exactly when no block which satisfies
the invariants of the check has a record of a kind which is not counted. -/
theorem atomicAllocation_iff (printer : Printer) (config : CheckConfig) :
    (∀ result, run printer config = .ok result → result.isPassed = true →
        ∃ block resources, blockOf config = some (block, resources) ∧
          AllocatedAtomically printer block resources) ↔
      ∀ block resources, blockOf config = some (block, resources) →
        Expected printer config resources → Invariants printer block resources →
          ∀ resource ∈ resources, Listed resource := by
  constructor
  · intro h block resources hblock hexpected hinvariants
    have ⟨result, hrun, hpassed⟩ := run_isPassed_iff.mpr ⟨block, resources, hblock, hexpected,
      hinvariants⟩
    have ⟨block', resources', hblock', hatomic⟩ := h result hrun hpassed
    rw [hblock, Option.some.injEq, Prod.mk.injEq] at hblock'
    rw [← hblock'.1, ← hblock'.2] at hatomic
    have ⟨amount, hamounts, hsum⟩ := hatomic.counts
    exact (sum_amount_iff hamounts).mp hsum
  · intro h result hrun hpassed
    have ⟨block, resources, hblock, hexpected, hinvariants⟩ :=
      run_isPassed_iff.mp ⟨result, hrun, hpassed⟩
    have hlisted := h block resources hblock hexpected hinvariants
    have ⟨amount, hamounts⟩ := hinvariants.counts
    exact ⟨block, resources, hblock,
      { counts := ⟨amount, hamounts, (sum_amount_iff hamounts).mpr hlisted⟩
        blockId := hinvariants.ids "block_id" (by decide)
        tenantId := hinvariants.ids "tenant_id" (by decide)
        members := fun resource hresource ↦ (hinvariants.members resource hresource).symm
        performance := hinvariants.homogeneous.2
        isolation := hinvariants.isolated.2 }⟩

/-! ## A record of another kind -/

/-- Text without blanks, in which no number is read. -/
def plainPrinter : Printer where
  lower := id
  isSpace := fun c ↦ c == ' '
  isAlnum := Char.isAlphanum
  decimal := fun _ ↦ none
  str := fun _ ↦ ""
  quoted := fun _ ↦ ""

def recordOf (kind : String) : Fields :=
  [("resource_id", .str ("r-" ++ kind)), ("resource_type", .str kind), ("tenant_id", .str "t"),
    ("topology_block_id", .str "b"), ("performance_domain", .str "p"),
    ("isolation_boundary", .str "i")]

/-- One compute node was requested and allocated, and a record of another kind is listed with it. -/
def acceleratedBlock : Fields :=
  [("block_id", .str "b"), ("reservation_id", .str "cr"), ("tenant_id", .str "t"),
    ("allocated_as_unit", .bool true), ("partial_allocation", .bool false),
    ("homogeneous", .bool true), ("isolation_enforced", .bool true),
    ("requested", .obj [("compute", .int 1)]), ("allocated", .obj [("compute", .int 1)]),
    ("resources", .arr [.obj (recordOf "compute"), .obj (recordOf "gpu")])]

def acceleratedConfig : CheckConfig where
  stepOutput := .obj [("success", .bool true), ("topology_block", .obj acceleratedBlock)]

/-- The check passes although one of the two records is in no count. -/
theorem uncounted_record_passes :
    (∃ result, run plainPrinter acceleratedConfig = .ok result ∧ result.isPassed = true) ∧
      ¬ ∃ block resources, blockOf acceleratedConfig = some (block, resources) ∧
        AllocatedAtomically plainPrinter block resources := by
  have hblock : blockOf acceleratedConfig =
      some (acceleratedBlock, [recordOf "compute", recordOf "gpu"]) := rfl
  have hrecords : ∀ p : Fields → Prop, p (recordOf "compute") → p (recordOf "gpu") →
      ∀ resource ∈ [recordOf "compute", recordOf "gpu"], p resource := by
    intro p hcompute hgpu resource hresource
    match List.mem_cons.mp hresource with
    | .inl heq => exact heq ▸ hcompute
    | .inr hrest => exact List.mem_singleton.mp hrest ▸ hgpu
  constructor
  · rw [run_isPassed_iff]
    refine ⟨acceleratedBlock, [recordOf "compute", recordOf "gpu"], hblock,
      ⟨⟨_, rfl, rfl⟩, 1, rfl, by decide⟩, ?_⟩
    exact
      { ids := by decide +kernel
        atomic := ⟨rfl, rfl⟩
        counts := ⟨fun name ↦ if name = "compute" then 1 else 0, _, _, rfl, rfl, by
          intro name hname
          simp only [countFields, List.mem_cons, List.not_mem_nil, or_false] at hname
          match hname with
          | .inl heq => subst heq; exact ⟨rfl, rfl, by decide +kernel⟩
          | .inr (.inl heq) => subst heq; exact ⟨rfl, rfl, by decide +kernel⟩
          | .inr (.inr heq) => subst heq; exact ⟨rfl, rfl, by decide +kernel⟩⟩
        fields := by decide +kernel
        members := hrecords _ ⟨rfl, rfl⟩ ⟨rfl, rfl⟩
        homogeneous := ⟨rfl, "p", hrecords _ rfl rfl⟩
        isolated := ⟨rfl, "i", hrecords _ rfl rfl⟩ }
  · rintro ⟨block, resources, hsame, hatomic⟩
    rw [hblock, Option.some.injEq, Prod.mk.injEq] at hsame
    rw [← hsame.1, ← hsame.2] at hatomic
    have ⟨amount, hamounts, hsum⟩ := hatomic.counts
    have ⟨name, hname, hkind⟩ :=
      (sum_amount_iff hamounts).mp hsum (recordOf "gpu") (List.mem_cons_of_mem _ List.mem_cons_self)
    have hgpu : name = "gpu" := (Json.str.inj hkind).symm
    subst hgpu
    exact absurd hname (by decide)

end IsvValidation.Capacity
