import IsvValidation.Config.Imports
import IsvValidation.Resolution.Entries

/-!
# The two walkers of the wiring

The catalog and the wiring linter read the checks of a document with a walker of their own. It drops
what is no check where the parser of the orchestrator leaves a placeholder, and otherwise both find
the same checks in the same order.
-/

namespace IsvValidation.Resolution

open Config Host

/-! ## The walker of the catalog -/

/-- One `(category, check_name, params)` tuple. -/
structure WiredCheck where
  category : Scalar
  name : Scalar
  params : Items

/-- `_from_mapping`. -/
def fromMapping (category : Scalar) : Value → List WiredCheck
  | .dict checks => checks.map fun check ↦
      ⟨category, check.1, match check.2 with
        | .dict params => params
        | _ => []⟩
  | _ => []

/-- The checks of one category. -/
def categoryChecks (category : Scalar) (config : Value) : List WiredCheck :=
  match config with
  | .dict _ =>
    match config.get? "checks" with
    | some (.dict checks) => fromMapping category (.dict checks)
    | some (.list checks) => checks.flatMap (fromMapping category)
    | some _ => []
    | none => fromMapping category config
  | .list checks => checks.flatMap (fromMapping category)
  | _ => []

theorem category_of_mem_fromMapping {category : Scalar} {config : Value} {check : WiredCheck}
    (h : check ∈ fromMapping category config) : check.category = category := by
  cases config with
  | dict checks =>
    obtain ⟨entry, _, rfl⟩ := List.mem_map.mp h
    rfl
  | _ => cases h

/-- Every check carries the category under which it was found. -/
theorem category_of_mem_categoryChecks {category : Scalar} {config : Value} {check : WiredCheck}
    (h : check ∈ categoryChecks category config) : check.category = category := by
  have hlist {items : List Value} (hmem : check ∈ items.flatMap (fromMapping category)) :
      check.category = category := by
    obtain ⟨item, _, hitem⟩ := List.mem_flatMap.mp hmem
    exact category_of_mem_fromMapping hitem
  unfold categoryChecks at h
  split at h
  · split at h
    · exact category_of_mem_fromMapping h
    · exact hlist h
    · cases h
    · exact category_of_mem_fromMapping h
  · exact hlist h
  · cases h

/-- `value.get(key, {})`; only a mapping has this method. -/
def getOrEmpty (value : Value) (key : String) : Except PyError Value :=
  match value with
  | .dict items => .ok ((items.lookup (.str key)).getD (.dict []))
  | _ => .error (.attributeError s!"'{value.typeName}' object has no attribute 'get'")

/-- `iter_checks_from_data`. -/
def iterChecksFromData (data : Value) : Except PyError (List WiredCheck) := do
  let tests ← getOrEmpty data.orEmpty "tests"
  match ← getOrEmpty tests "validations" with
  | .dict validations => .ok (validations.flatMap fun item ↦ categoryChecks item.1 item.2)
  | _ => .ok []

/-! ## The items of a document -/

/-- What a document has where a check belongs: a check under its key, or something which is none. -/
inductive DocumentItem where
  | check (name : Scalar)
  | malformed
  deriving DecidableEq

namespace DocumentItem

def name? : DocumentItem → Option Scalar
  | check name => some name
  | malformed => none

/-- A mapping has a check under each of its keys. -/
def ofValue : Value → List DocumentItem
  | .dict checks => checks.map fun entry ↦ check entry.1
  | _ => [malformed]

/-- A category is a mapping or a list of mappings, or a group with either under the key `checks`. -/
def ofCategory : Value → List DocumentItem
  | .list items => items.flatMap ofValue
  | .dict items =>
    match items.lookup (.str "checks") with
    | none => ofValue (.dict items)
    | some (.list checks) => checks.flatMap ofValue
    | some checks => ofValue checks
  | _ => [malformed]

end DocumentItem

/-- The items of a document outside of the categories which adapters handle, with their categories. -/
def documentItems (validations : Items) : List (Scalar × DocumentItem) :=
  (validations.filter fun item ↦ item.1 ≠ .str "reframe").flatMap fun item ↦
    (DocumentItem.ofCategory item.2).map (item.1, ·)

/-- An entry which stands for a malformed item. -/
def IsPlaceholder (entry : ValidationEntry) : Prop :=
  entry.name = "<invalid>" ∧ ∃ message, entry.paramsTemplate = invalidParams message

/-- An entry has the category of its item, and the name of the check or the shape of a placeholder. -/
def StandsFor (item : Scalar × DocumentItem) (entry : ValidationEntry) : Prop :=
  .str entry.category = item.1 ∧
    match item.2 with
    | .check name => .str entry.name = name
    | .malformed => IsPlaceholder entry

/-- The pair of an entry. -/
def entryPair (entry : ValidationEntry) : Scalar × Scalar := (.str entry.category, .str entry.name)

def checkPairs (items : List (Scalar × DocumentItem)) : List (Scalar × Scalar) :=
  items.filterMap fun item ↦ item.2.name?.map (item.1, ·)

section Stands

variable {items : List (Scalar × DocumentItem)} {entries : List ValidationEntry}

/-- The entries of the items which are checks have their pairs. -/
theorem map_entryPair_checks (h : List.Forall₂ StandsFor items entries) :
    ((items.zip entries).filter fun both ↦ both.1.2 ≠ .malformed).map (fun both ↦ entryPair both.2) =
      checkPairs items := by
  induction h with
  | nil => rfl
  | @cons item entry items entries hstands _ ih =>
    obtain ⟨category, kind⟩ := item
    rw [List.zip_cons_cons]
    cases kind with
    | check name =>
      obtain ⟨hcategory, hname⟩ : .str entry.category = category ∧ .str entry.name = name := hstands
      rw [List.filter_cons_of_pos (by simp), List.map_cons, ih, entryPair, hcategory, hname]
      rfl
    | malformed =>
      rw [List.filter_cons_of_neg (by simp), ih]
      rfl

/-- Where no check has the name of the placeholders, they are told by their name. -/
theorem map_entryPair_named (h : List.Forall₂ StandsFor items entries)
    (hnames : ∀ category, (category, .check (.str "<invalid>")) ∉ items) :
    (entries.filter fun entry ↦ entry.name ≠ "<invalid>").map entryPair = checkPairs items := by
  induction h with
  | nil => rfl
  | @cons item entry items entries hstands _ ih =>
    have hrest := ih fun category hmem ↦ hnames category (List.mem_cons_of_mem _ hmem)
    obtain ⟨category, kind⟩ := item
    cases kind with
    | check name =>
      obtain ⟨hcategory, rfl⟩ : .str entry.category = category ∧ .str entry.name = name := hstands
      have hne : entry.name ≠ "<invalid>" :=
        fun heq ↦ hnames category (by rw [heq]; exact List.mem_cons_self)
      rw [List.filter_cons_of_pos (by simpa using hne), List.map_cons, hrest, entryPair, hcategory]
      rfl
    | malformed =>
      rw [List.filter_cons_of_neg (by simpa using hstands.2.1), hrest]
      rfl

end Stands

/-! ## The two walkers -/

section Agree

variable (host : Runtime)

theorem name_entryOfItem (category : String) (item : ParsedItem) :
    (entryOfItem host category item).name = item.name ∧
      (entryOfItem host category item).category = category := by
  unfold entryOfItem
  split <;> exact ⟨rfl, rfl⟩

theorem standsFor_invalidItem (category message : String) :
    StandsFor (.str category, .malformed) (entryOfItem host category (invalidItem message)) := by
  unfold entryOfItem
  split
  · exact ⟨rfl, rfl, _, rfl⟩
  · exact ⟨rfl, rfl, message, rfl⟩

/-- All checks among some items have texts as names. -/
def StringNames (items : List DocumentItem) : Prop := ∀ name, .check name ∈ items → ∃ text, name = .str text

theorem standsFor_expandChecks (category : String) (checks : Items) (groupStep groupPhase : Value)
    (hnames : StringNames (DocumentItem.ofValue (.dict checks))) :
    List.Forall₂ StandsFor ((DocumentItem.ofValue (.dict checks)).map (.str category, ·))
      ((expandChecks host checks groupStep groupPhase).map (entryOfItem host category)) := by
  rw [DocumentItem.ofValue, expandChecks, List.map_map, List.map_map, List.forall₂_map_left_iff,
    List.forall₂_map_right_iff, List.forall₂_same]
  intro check hcheck
  obtain ⟨text, htext⟩ := hnames check.1 (List.mem_map_of_mem hcheck)
  have hentry := name_entryOfItem host category
    ⟨host.strOf (.scalar check.1), check.2.orEmpty, groupStep, groupPhase⟩
  refine ⟨congrArg Scalar.str hentry.2, (congrArg Scalar.str hentry.1).trans ?_⟩
  rw [htext]
  rfl

theorem standsFor_expandCheckList (category : String) (items : List Value)
    (groupStep groupPhase : Value) (message : String)
    (hnames : StringNames (items.flatMap DocumentItem.ofValue)) :
    List.Forall₂ StandsFor ((items.flatMap DocumentItem.ofValue).map (.str category, ·))
      ((expandCheckList host items groupStep groupPhase message).map (entryOfItem host category)) := by
  induction items with
  | nil => exact .nil
  | cons item rest ih =>
    rw [expandCheckList, List.flatMap_cons, List.map_append, List.flatMap_cons, List.map_append]
    refine List.rel_append ?_ (ih fun name hmem ↦ hnames name (List.mem_append_right _ hmem))
    cases item with
    | dict checks =>
      exact standsFor_expandChecks host category checks groupStep groupPhase
        fun name hmem ↦ hnames name (List.mem_append_left _ hmem)
    | _ => exact .cons (standsFor_invalidItem host category message) .nil

/-- The parser has an entry for each item of a category. -/
theorem standsFor_category (category : String) (config : Value)
    (hnames : StringNames (DocumentItem.ofCategory config)) :
    List.Forall₂ StandsFor ((DocumentItem.ofCategory config).map (.str category, ·))
      ((iterValidationItems host category config).map (entryOfItem host category)) := by
  have hplaceholder (message : String) : List.Forall₂ StandsFor [(.str category, .malformed)]
      ([invalidItem message].map (entryOfItem host category)) :=
    .cons (standsFor_invalidItem host category message) .nil
  unfold iterValidationItems
  unfold DocumentItem.ofCategory at hnames ⊢
  cases config with
  | dict items =>
    simp only [Value.get?] at hnames ⊢
    cases hchecks : items.lookup (.str "checks") with
    | none =>
      rw [hchecks] at hnames
      exact standsFor_expandChecks host category items .null .null hnames
    | some checks =>
      rw [hchecks] at hnames
      cases checks with
      | dict checks => exact standsFor_expandChecks host category checks _ _ hnames
      | list checks => exact standsFor_expandCheckList host category checks _ _ _ hnames
      | _ => exact hplaceholder _
  | list items => exact standsFor_expandCheckList host category items _ _ _ hnames
  | _ => exact hplaceholder _

/-- The parser has an entry for each item of the document. -/
theorem standsFor_parseValidations {validations : Items} (h : strKeyed validations = true)
    (hnames : StringNames ((documentItems validations).map Prod.snd)) :
    List.Forall₂ StandsFor (documentItems validations) (parseValidations host validations) := by
  induction validations with
  | nil => exact .nil
  | cons item rest ih =>
    obtain ⟨key, config⟩ := item
    rw [strKeyed, List.all_cons, Bool.and_eq_true] at h
    cases key with
    | str category =>
      rw [parseValidations, List.flatMap_cons]
      by_cases hcategory : category = "reframe"
      · have hskip : documentItems ((.str category, config) :: rest) = documentItems rest := by
          rw [documentItems, List.filter_cons_of_neg (by simp [hcategory])]
          rfl
        rw [hskip] at hnames ⊢
        simp only [if_pos (show category ∈ adapterHandledCategories by
          simp [adapterHandledCategories, hcategory])]
        exact ih h.2 hnames
      · have hkeep : documentItems ((.str category, config) :: rest) =
            (DocumentItem.ofCategory config).map (.str category, ·) ++ documentItems rest := by
          rw [documentItems, List.filter_cons_of_pos (by simp [hcategory]), List.flatMap_cons]
          rfl
        rw [hkeep] at hnames ⊢
        rw [List.map_append] at hnames
        simp only [if_neg (show category ∉ adapterHandledCategories by
          simp [adapterHandledCategories, hcategory])]
        refine List.rel_append (standsFor_category host category config fun name hmem ↦ ?_)
          (ih h.2 fun name hmem ↦ hnames name (List.mem_append_right _ hmem))
        apply hnames name (List.mem_append_left _ _)
        rw [List.map_map]
        exact List.mem_map.mpr ⟨_, hmem, rfl⟩
    | _ => simp at h

/-- The pair of a wired check. -/
def WiredCheck.pair (check : WiredCheck) : Scalar × Scalar := (check.category, check.name)

theorem pairs_fromMapping (category : Scalar) (config : Value) :
    (fromMapping category config).map WiredCheck.pair =
      checkPairs ((DocumentItem.ofValue config).map (category, ·)) := by
  cases config with
  | dict checks =>
    rw [fromMapping, DocumentItem.ofValue, checkPairs, List.map_map, List.map_map, List.filterMap_map]
    exact (List.filterMap_eq_map ▸ rfl)
  | _ => rfl

theorem pairs_flatMap_fromMapping (category : Scalar) (items : List Value) :
    (items.flatMap (fromMapping category)).map WiredCheck.pair =
      checkPairs ((items.flatMap DocumentItem.ofValue).map (category, ·)) := by
  rw [List.map_flatMap, List.map_flatMap, checkPairs, List.filterMap_flatMap]
  exact congrArg (items.flatMap ·) (funext fun item ↦ pairs_fromMapping category item)

/-- The catalog's walker has a check for each key of a category. -/
theorem pairs_categoryChecks (category : Scalar) (config : Value) :
    (categoryChecks category config).map WiredCheck.pair =
      checkPairs ((DocumentItem.ofCategory config).map (category, ·)) := by
  unfold categoryChecks DocumentItem.ofCategory
  cases config with
  | dict items =>
    simp only [Value.get?]
    cases items.lookup (.str "checks") with
    | none => exact pairs_fromMapping category (.dict items)
    | some checks =>
      cases checks with
      | dict checks => exact pairs_fromMapping category (.dict checks)
      | list checks => exact pairs_flatMap_fromMapping category checks
      | _ => rfl
  | list items => exact pairs_flatMap_fromMapping category items
  | _ => rfl

/-- The checks which the catalog's walker finds outside of the categories which adapters handle. -/
def wiredPairs (checks : List WiredCheck) : List (Scalar × Scalar) :=
  (checks.filter fun check ↦ check.category ≠ .str "reframe").map WiredCheck.pair

/-- The catalog's walker has a check for each key of the document. -/
theorem wiredPairs_eq (validations : Items) :
    wiredPairs (validations.flatMap fun item ↦ categoryChecks item.1 item.2) =
      checkPairs (documentItems validations) := by
  induction validations with
  | nil => rfl
  | cons item rest ih =>
    have hall : ∀ check ∈ categoryChecks item.1 item.2, check.category = item.1 :=
      fun check hcheck ↦ category_of_mem_categoryChecks hcheck
    rw [wiredPairs, List.flatMap_cons, List.filter_append, List.map_append, documentItems]
    by_cases hcategory : item.1 = .str "reframe"
    · rw [List.filter_eq_nil_iff.mpr fun check hcheck ↦ by simp [hall check hcheck, hcategory],
        List.filter_cons_of_neg (by simp [hcategory])]
      exact ih
    · rw [List.filter_eq_self.mpr fun check hcheck ↦ by simp [hall check hcheck, hcategory],
        List.filter_cons_of_pos (by simp [hcategory]), List.flatMap_cons, checkPairs, List.filterMap_append,
        pairs_categoryChecks]
      exact congrArg _ ih

/-- The parser has an entry for each item of the document, in order, which is a placeholder for one that
is no check. Without these the entries are the checks of the catalog's walker; where no check has the
name of the placeholders, they may as well be removed by their name. -/
structure WalkersAgree (validations : Items) (checks : List WiredCheck) : Prop where
  entries : List.Forall₂ StandsFor (documentItems validations) (parseValidations host validations)
  removed : (((documentItems validations).zip (parseValidations host validations)).filter
    fun both ↦ both.1.2 ≠ .malformed).map (fun both ↦ entryPair both.2) = wiredPairs checks
  byName : (∀ category, (category, .check (.str "<invalid>")) ∉ documentItems validations) →
    ((parseValidations host validations).filter fun entry ↦ entry.name ≠ "<invalid>").map entryPair =
      wiredPairs checks

/-- The two walkers agree on every document whose validations map string categories to values of
any shape, with string check names. -/
theorem walkers_agree {data tests : Value} {validations : Items}
    (htests : data.get? "tests" = some tests)
    (hvalidations : tests.get? "validations" = some (.dict validations))
    (hcategories : strKeyed validations = true)
    (hnames : StringNames ((documentItems validations).map Prod.snd)) :
    ∃ checks, iterChecksFromData data = .ok checks ∧ WalkersAgree host validations checks := by
  have hdata : iterChecksFromData data =
      .ok (validations.flatMap fun item ↦ categoryChecks item.1 item.2) := by
    cases data with
    | dict items =>
      cases tests with
      | dict inner =>
        have hne : items ≠ [] := by
          intro hnil
          subst hnil
          cases htests
        have hempty : (Value.dict items).orEmpty = .dict items := by
          cases items with
          | nil => exact absurd rfl hne
          | cons item rest => rfl
        change items.lookup (.str "tests") = some (.dict inner) at htests
        change inner.lookup (.str "validations") = some (.dict validations) at hvalidations
        have hinner : getOrEmpty (Value.dict items).orEmpty "tests" = .ok (.dict inner) := by
          rw [hempty, getOrEmpty, htests]
          rfl
        have hfound : getOrEmpty (.dict inner) "validations" = .ok (.dict validations) := by
          rw [getOrEmpty, hvalidations]
          rfl
        simp only [iterChecksFromData, hinner, bind, Except.bind, hfound]
      | _ => cases hvalidations
    | _ => cases htests
  have hstands := standsFor_parseValidations host hcategories hnames
  refine ⟨_, hdata, hstands, ?_, fun hnone ↦ ?_⟩
  · rw [map_entryPair_checks hstands, wiredPairs_eq]
  · rw [map_entryPair_named hstands hnone, wiredPairs_eq]

/-- The forms of the wiring in one document, with a malformed item in a list. -/
def wiringForms : Items :=
  [(.str "network", .list [.dict [(.str "PingCheck", .null)], .scalar (.int 5)]),
    (.str "storage", .dict [(.str "step", .str "create"),
      (.str "checks", .dict [(.str "QuotaCheck", .dict [])])]),
    (.str "reframe", .dict [(.str "ReframeCheck", .null)]),
    (.str "compute", .str "none")]

theorem walkers_agree_forms :
    ∃ checks, iterChecksFromData
        (.dict [(.str "tests", .dict [(.str "validations", .dict wiringForms)])]) = .ok checks ∧
      WalkersAgree Runtime.plain wiringForms checks := by
  apply walkers_agree Runtime.plain rfl rfl (by decide)
  intro name hname
  have hitems : (documentItems wiringForms).map Prod.snd =
      [.check (.str "PingCheck"), .malformed, .check (.str "QuotaCheck"), .malformed] := rfl
  rw [hitems] at hname
  simp only [List.mem_cons, DocumentItem.check.injEq, reduceCtorEq, List.not_mem_nil, or_false,
    false_or] at hname
  rcases hname with rfl | rfl <;> exact ⟨_, rfl⟩

end Agree

/-! ## The labels of a check -/

theorem collect_concat_none {labels : List Value} {last : Value} (h : last.str? = none) :
    wiringLabels.collect (labels ++ [last]) = wiringLabels.collect labels := by
  rw [wiringLabels.collect, List.foldl_append, List.foldl_cons, List.foldl_nil, h]
  rfl

theorem collect_concat_some {labels : List Value} {last : Value} {text : String} (h : last.str? = some text) :
    wiringLabels.collect (labels ++ [last]) =
      if text != "" && !(wiringLabels.collect labels).contains text then wiringLabels.collect labels ++ [text]
      else wiringLabels.collect labels := by
  rw [wiringLabels.collect, List.foldl_append, List.foldl_cons, List.foldl_nil, h]
  rfl

/-- The labels which are collected are the texts which are not empty. -/
theorem mem_collect {labels : List Value} {label : String} :
    label ∈ wiringLabels.collect labels ↔ label ∈ labels.filterMap Value.str? ∧ label ≠ "" := by
  induction labels using List.reverseRecOn with
  | nil => simp [wiringLabels.collect]
  | append_singleton labels last ih =>
    cases htext : last.str? with
    | none =>
      rw [collect_concat_none htext, ih, List.filterMap_append]
      simp [htext]
    | some text =>
      rw [collect_concat_some htext, List.filterMap_append, List.mem_append]
      simp only [List.filterMap_cons, htext, List.filterMap_nil, List.mem_singleton]
      split_ifs with hnew
      · rw [List.mem_append, ih, List.mem_singleton]
        rw [Bool.and_eq_true, bne_iff_ne] at hnew
        constructor
        · rintro (⟨hmem, hne⟩ | rfl)
          · exact ⟨.inl hmem, hne⟩
          · exact ⟨.inr rfl, hnew.1⟩
        · rintro ⟨hmem | rfl, hne⟩
          · exact .inl ⟨hmem, hne⟩
          · exact .inr rfl
      · rw [ih]
        constructor
        · rintro ⟨hmem, hne⟩
          exact ⟨.inl hmem, hne⟩
        · rintro ⟨hmem | rfl, hne⟩
          · exact ⟨hmem, hne⟩
          · -- The text which is left out is there already.
            by_contra hnot
            rw [← ih] at hnot
            exact hnew (by simp [hne, hnot])

/-- An empty text is the label of no check. -/
theorem empty_notMem_wiringLabels (params : Value) : "" ∉ wiringLabels params := by
  unfold wiringLabels
  split
  · simp [mem_collect]
  · simp [mem_collect]
  · simp

theorem empty_notMem_labels {host : Runtime} {raw : Items} {entry : ValidationEntry}
    (h : entry ∈ parseValidations host raw) : "" ∉ entry.labels := by
  have hitem : ∀ category item, "" ∉ (entryOfItem host category item).labels := by
    intro category item
    unfold entryOfItem
    split
    · simp [invalidEntry]
    · exact empty_notMem_wiringLabels item.params
  obtain ⟨⟨category, config⟩, -, hentry⟩ := List.mem_flatMap.mp h
  dsimp only at hentry
  split at hentry
  · split_ifs at hentry
    · cases hentry
    · obtain ⟨item, -, rfl⟩ := List.mem_map.mp hentry
      exact hitem _ item
  · cases List.mem_singleton.mp hentry
    simp [invalidEntry]

end IsvValidation.Resolution
