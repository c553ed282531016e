import IsvValidation.Catalog.Build

/-!
# The contents of a catalog

A catalog which is built says of every check which is published, and of no other, where it is wired and with which
labels; the part of the vocabulary in which its suite stands says whether it is a platform's. The same classes and
the same wiring make the same catalog, in whatever order they are found.
-/

namespace IsvValidation.Catalog

open Config Host Library Resolution

/-! ## Classes and labels as a run knows them -/

section Keys

variable {name : String} {keys others : List String}

/-- Of the keys of which a name is a variant, no two have the same length. -/
theorem eq_of_variant {one other : String} (hone : Text.startsWith name (one ++ "-") = true)
    (hother : Text.startsWith name (other ++ "-") = true) (hlength : one.length = other.length) : one = other := by
  have hone' : one.toList <+: name.toList := by
    refine (List.prefix_append one.toList ['-']).trans ?_
    have hstart := List.isPrefixOf_iff_prefix.mp hone
    rwa [String.toList_append] at hstart
  have hother' : other.toList <+: name.toList := by
    refine (List.prefix_append other.toList ['-']).trans ?_
    have hstart := List.isPrefixOf_iff_prefix.mp hother
    rwa [String.toList_append] at hstart
  apply String.toList_injective
  exact (List.prefix_of_prefix_length_le hone' hother' hlength.le).eq_of_length hlength

/-- In which order the keys stand, and how often, plays no part. -/
theorem resolveClassKey_congr (h : ∀ key, key ∈ keys ↔ key ∈ others) :
    resolveClassKey name keys = resolveClassKey name others := by
  unfold resolveClassKey
  rw [if_congr (h name) rfl rfl]
  split_ifs
  · rfl
  have hmem : ∀ key, key ∈ (keys.filter fun key ↦ Text.startsWith name (key ++ "-")) ↔
      key ∈ (others.filter fun key ↦ Text.startsWith name (key ++ "-")) := by
    intro key
    rw [List.mem_filter, List.mem_filter, h key]
  cases hfirst : (keys.filter fun key ↦ Text.startsWith name (key ++ "-")).argmax String.length with
  | none =>
    rw [List.argmax_eq_none] at hfirst
    rw [eq_comm, List.argmax_eq_none, List.eq_nil_iff_forall_not_mem]
    intro key hkey
    rw [← hmem key, hfirst] at hkey
    cases hkey
  | some one =>
    have hone := List.argmax_mem hfirst
    cases hsecond : (others.filter fun key ↦ Text.startsWith name (key ++ "-")).argmax String.length with
    | none =>
      rw [List.argmax_eq_none] at hsecond
      rw [hmem one, hsecond] at hone
      cases hone
    | some other =>
      have hother := List.argmax_mem hsecond
      have hlength : one.length = other.length :=
        le_antisymm (List.le_of_mem_argmax ((hmem one).mp hone) hsecond)
          (List.le_of_mem_argmax ((hmem other).mpr hother) hfirst)
      rw [eq_of_variant (List.mem_filter.mp hone).2 (List.mem_filter.mp hother).2 hlength]

theorem mem_classKeys {classes : List DiscoveredClass} :
    name ∈ classKeys classes ↔ name ∈ classes.map DiscoveredClass.name := by
  simp only [classKeys, excludedNames, List.mem_append, List.mem_map, List.mem_filter]
  constructor
  · rintro (⟨found, ⟨hmem, -⟩, rfl⟩ | ⟨found, ⟨hmem, -⟩, rfl⟩) <;> exact ⟨found, hmem, rfl⟩
  · rintro ⟨found, hmem, rfl⟩
    cases hexclude : found.catalogExclude with
    | false => exact .inl ⟨found, ⟨hmem, by rw [hexclude]; rfl⟩, rfl⟩
    | true => exact .inr ⟨found, ⟨hmem, hexclude⟩, rfl⟩

end Keys

/-- The catalog reads the labels of a check as a run does. -/
theorem mem_checkLabels {params : Items} {label : String} :
    label ∈ checkLabels params ↔ label ∈ wiringLabels (.dict params) := by
  have hget : (Value.dict params).get? "labels" = params.lookup (.str "labels") := rfl
  unfold checkLabels wiringLabels
  rw [hget]
  generalize params.lookup (.str "labels") = found
  cases found with
  | none => simp
  | some value =>
    cases value with
    | scalar value =>
      cases value with
      | str text => simp [mem_collect, Value.str?]
      | _ => simp
    | list labels => simp [mem_collect]
    | _ => simp

/-! ## What an entry says -/

/-- The class which answers to the name of a check; a composite has none. -/
def wiredTo (classes : List DiscoveredClass) (check : WiredCheck) : Option String :=
  if isComposite (.dict check.params) then none
  else
    match check.name with
    | .str name => resolveClassKey name (classes.map DiscoveredClass.name)
    | _ => none

/-- Whether a check is published: a composite is, and a check of a class which is not excluded. -/
def IsPublished (classes : List DiscoveredClass) (check : WiredCheck) : Prop :=
  isComposite (.dict check.params) = true ∨ ∃ base, wiredTo classes check = some base ∧ base ∉ excludedNames classes

/-- The entry of a check which a suite wires. Its labels are those which some configuration wires, where a run would
select by them, under its name, its class or a variant of one of them. -/
structure Describes (workspace : Workspace) (file : ConfigFile) (check : WiredCheck) (entry : BuiltEntry) : Prop where
  name : entry.name = check.name
  place : ∃ data, suiteData file = .ok data ∧ declaredCapability data = .ok entry.capability ∧
    entry.suite = suiteOf workspace.unicode file entry.capability
  requires : entry.requires = requiredValues check.params
  labels : ∀ label, label ∈ entry.labels ↔ ∃ source ∈ workspace.configs, ∃ wired ∈ source.checks,
    label ∈ wiringLabels (.dict wired.params) ∧ (CountsFor wired.name check.name ∨
      ∃ base, wiredTo workspace.classes check = some base ∧ CountsFor wired.name (.str base))
  testIds : ∀ id, id ∈ entry.testIds ↔ ∃ source ∈ workspace.configs, ∃ wired ∈ source.checks,
    id ∈ checkTestIds wired.params ∧ CountsFor wired.name check.name
  composite : isComposite (.dict check.params) = true → entry.source = "isvtest.core.composite" ∧
    entry.description = wiredDescription check.params
  ofClass : ∀ base, wiredTo workspace.classes check = some base → ∃ found ∈ workspace.classes, found.name = base ∧
    found.catalogExclude = false ∧ entry.source = found.source

section Entry

variable {workspace : Workspace} {labels testIds : OrderedMap Scalar (Finset String)} {check : WiredCheck}

theorem wiredClass_ok {classes : List DiscoveredClass} {found : Option (String × String)}
    (hcomposite : isComposite (.dict check.params) = false) (h : wiredClass classes check.name = .ok found) :
    wiredTo classes check = found.map Prod.snd := by
  rw [wiredTo, if_neg (by simp [hcomposite])]
  cases hname : check.name with
  | str name =>
    rw [hname] at h
    cases h
    rw [resolveClassKey_congr fun key ↦ mem_classKeys, Option.map_map]
    exact Option.map_id'.symm
  | _ =>
    rw [hname] at h
    unfold wiredClass at h
    dsimp only at h ⊢
    split_ifs at h
    cases h
    rfl

theorem mem_of_classMeta {classes : List DiscoveredClass} {name : String} {found : DiscoveredClass}
    (h : classMeta classes name = some found) :
    found ∈ classes ∧ found.name = name ∧ found.catalogExclude = false := by
  unfold classMeta at h
  have hmem := List.mem_of_find?_eq_some h
  have hname := List.find?_some h
  rw [List.mem_reverse, List.mem_filter, Bool.not_eq_true'] at hmem
  exact ⟨hmem.1, of_decide_eq_true hname, hmem.2⟩

/-- What becomes of a check which is looked up: a composite has an entry, a check which no class answers to or whose
class is excluded has none, and one of a published class has an entry. -/
theorem catalogEntry_cases {suite : String} {capability : Option String} {entry : Option BuiltEntry}
    {classes : List DiscoveredClass}
    (h : catalogEntry labels testIds check.name (placementOf suite capability check.params) classes = .ok entry) :
    (isComposite (.dict check.params) = true ∧ entry = some (entryOf labels testIds check.name
      (placementOf suite capability check.params) (wiredDescription check.params) "isvtest.core.composite" ∅)) ∨
    (¬ IsPublished classes check ∧ entry = none) ∨
    (isComposite (.dict check.params) = false ∧ ∃ base found text, wiredTo classes check = some base ∧
      base ∉ excludedNames classes ∧ classMeta classes base = some found ∧ entry = some (entryOf labels testIds
        check.name (placementOf suite capability check.params)
        (.str (variantDescription text base found.description)) found.source (labels.membersAt (.str base)))) := by
  unfold catalogEntry at h
  cases hcomposite : isComposite (.dict check.params) with
  | true =>
    rw [if_pos (by exact hcomposite)] at h
    cases h
    exact .inl ⟨rfl, rfl⟩
  | false =>
    rw [if_neg (by simp [placementOf, hcomposite])] at h
    obtain ⟨class?, hclass, hnext⟩ := bind_eq_ok.mp h
    have hwired := wiredClass_ok hcomposite hclass
    cases class? with
    | none =>
      cases hnext
      refine .inr (.inl ⟨?_, rfl⟩)
      rintro (hyes | ⟨base, hbase, -⟩)
      · rw [hcomposite] at hyes
        cases hyes
      · rw [hwired] at hbase
        cases hbase
    | some pair =>
      obtain ⟨text, base⟩ := pair
      dsimp only at hnext
      split at hnext
      · next hexcluded =>
        cases hnext
        refine .inr (.inl ⟨?_, rfl⟩)
        rintro (hyes | ⟨other, hother, hpublished⟩)
        · rw [hcomposite] at hyes
          cases hyes
        · rw [hwired] at hother
          cases hother
          exact hpublished hexcluded
      · next hpublished =>
        split at hnext
        · cases hnext
        · next found hfound =>
          cases hnext
          exact .inr (.inr ⟨rfl, base, found, text, hwired, hpublished, hfound, rfl⟩)

/-- A check which is looked up has an entry exactly if it is published. -/
theorem catalogEntry_isSome {suite : String} {capability : Option String} {entry : Option BuiltEntry}
    {classes : List DiscoveredClass}
    (h : catalogEntry labels testIds check.name (placementOf suite capability check.params) classes = .ok entry) :
    entry.isSome ↔ IsPublished classes check := by
  obtain ⟨hcomposite, rfl⟩ | ⟨hnot, rfl⟩ | ⟨-, base, found, text, hwired, hpublished, -, rfl⟩ := catalogEntry_cases h
  · exact iff_of_true rfl (.inl hcomposite)
  · exact iff_of_false (by simp) hnot
  · exact iff_of_true rfl (.inr ⟨base, hwired, hpublished⟩)

theorem name_of_catalogEntry {name : Scalar} {placement : Placement} {classes : List DiscoveredClass}
    {entry : BuiltEntry} (h : catalogEntry labels testIds name placement classes = .ok (some entry)) :
    entry.name = name := by
  unfold catalogEntry at h
  split at h
  · cases h
    rfl
  · obtain ⟨class?, -, hnext⟩ := bind_eq_ok.mp h
    cases class? with
    | none => cases hnext
    | some pair =>
      dsimp only at hnext
      split at hnext
      · cases hnext
      · split at hnext
        · cases hnext
        · cases hnext
          rfl

theorem catalogEntry_describes {file : ConfigFile} {data : Value} {capability : Option String} {entry : BuiltEntry}
    (hlabels : buildLabelMap workspace = .ok labels) (htestIds : buildTestIdMap workspace = .ok testIds)
    (hdata : suiteData file = .ok data) (hcapability : declaredCapability data = .ok capability)
    (h : catalogEntry labels testIds check.name (placementOf (suiteOf workspace.unicode file capability) capability
      check.params) workspace.classes = .ok (some entry)) : Describes workspace file check entry := by
  have hcounts : ∀ key label, label ∈ labels.membersAt key ↔ ∃ source ∈ workspace.configs, ∃ wired ∈ source.checks,
      label ∈ wiringLabels (.dict wired.params) ∧ CountsFor wired.name key := by
    intro key label
    simp only [buildCheckAttributeMap_spec hlabels, mem_checkLabels]
  have hids : ∀ key id, id ∈ testIds.membersAt key ↔ ∃ source ∈ workspace.configs, ∃ wired ∈ source.checks,
      id ∈ checkTestIds wired.params ∧ CountsFor wired.name key :=
    fun key id ↦ buildCheckAttributeMap_spec htestIds
  obtain ⟨hcomposite, heq⟩ | ⟨-, heq⟩ | ⟨hcomposite, base, found, text, hwired, hpublished, hfound, heq⟩ :=
    catalogEntry_cases h
  · cases heq
    have hnone : wiredTo workspace.classes check = none := if_pos hcomposite
    refine {
      name := rfl
      place := ⟨data, hdata, hcapability, rfl⟩
      requires := rfl
      labels := fun label ↦ ?_
      testIds := fun id ↦ ?_
      composite := fun _ ↦ ⟨rfl, rfl⟩
      ofClass := fun base hbase ↦ ?_ }
    · rw [entryOf, mem_sortedMembers, Finset.empty_union, hcounts, hnone]
      simp
    · rw [entryOf, mem_sortedMembers, hids]
    · rw [hnone] at hbase
      cases hbase
  · cases heq
  · cases heq
    obtain ⟨hmem, hname, hexclude⟩ := mem_of_classMeta hfound
    refine {
      name := rfl
      place := ⟨data, hdata, hcapability, rfl⟩
      requires := rfl
      labels := fun label ↦ ?_
      testIds := fun id ↦ ?_
      composite := fun hyes ↦ ?_
      ofClass := fun other hother ↦ ?_ }
    · rw [entryOf, mem_sortedMembers, Finset.mem_union, hcounts, hcounts, hwired]
      constructor
      · rintro (⟨source, hsource, wired, hmem, hlabel, hfor⟩ | ⟨source, hsource, wired, hmem, hlabel, hfor⟩)
        · exact ⟨source, hsource, wired, hmem, hlabel, .inr ⟨base, rfl, hfor⟩⟩
        · exact ⟨source, hsource, wired, hmem, hlabel, .inl hfor⟩
      · rintro ⟨source, hsource, wired, hmem, hlabel, hfor | ⟨other, hother, hfor⟩⟩
        · exact .inr ⟨source, hsource, wired, hmem, hlabel, hfor⟩
        · cases hother
          exact .inl ⟨source, hsource, wired, hmem, hlabel, hfor⟩
    · rw [entryOf, mem_sortedMembers, hids]
    · rw [hcomposite] at hyes
      cases hyes
    · rw [hwired] at hother
      cases hother
      exact ⟨found, hmem, hname, hexclude, rfl⟩

end Entry

/-! ## What the catalog says -/

theorem iterChecksFromData_orEmpty (data : Value) : iterChecksFromData data.orEmpty = iterChecksFromData data := by
  have hempty : data.orEmpty.orEmpty = data.orEmpty := by
    unfold Value.orEmpty
    split_ifs <;> rfl
  rw [iterChecksFromData, iterChecksFromData, hempty]

theorem checks_eq_of_suiteData {file : ConfigFile} {data : Value} {checks : List WiredCheck}
    (hdata : suiteData file = .ok data) (hchecks : iterChecksFromData data = .ok checks) : file.checks = checks := by
  unfold suiteData at hdata
  cases hraw : file.data with
  | none =>
    rw [hraw] at hdata
    cases hdata
  | some raw =>
    rw [hraw] at hdata
    cases hdata
    rw [iterChecksFromData_orEmpty] at hchecks
    rw [ConfigFile.checks, hraw, Option.map_some, Option.getD_some, hchecks]
    rfl

/-- The items of one file: each is placed as the document of the file says. -/
theorem filePlacements_spec {workspace : Workspace} {file : ConfigFile} {placed : List (Scalar × Placement)}
    (h : filePlacements workspace file = .ok placed) : ∃ data capability, suiteData file = .ok data ∧
      declaredCapability data = .ok capability ∧
        placed = file.checks.map (placedCheck (suiteOf workspace.unicode file capability) capability) := by
  obtain ⟨data, hdata, hrest⟩ := bind_eq_ok.mp h
  obtain ⟨capability, hcapability, hrest⟩ := bind_eq_ok.mp hrest
  obtain ⟨checks, hchecks, hplaced⟩ := bind_eq_ok.mp hrest
  cases hplaced
  exact ⟨data, capability, hdata, hcapability, by rw [checks_eq_of_suiteData hdata hchecks]⟩

/-- What is placed is what the suites wire. -/
theorem mem_buildSuiteMap {workspace : Workspace} {suites : List (Scalar × Placement)}
    (h : buildSuiteMap workspace = .ok suites) {item : Scalar × Placement} :
    item ∈ suites ↔ ∃ file ∈ suiteFiles workspace.configs, ∃ check ∈ file.checks, ∃ data capability,
      suiteData file = .ok data ∧ declaredCapability data = .ok capability ∧
        item = placedCheck (suiteOf workspace.unicode file capability) capability check := by
  obtain ⟨parts, hparts, rfl, -⟩ := buildSuiteMap_iff.mp h
  rw [List.mem_flatten]
  constructor
  · rintro ⟨part, hpart, hmem⟩
    obtain ⟨file, hfile, hplaced⟩ := (mem_of_mapM_ok hparts part).mp hpart
    obtain ⟨data, capability, hdata, hcapability, rfl⟩ := filePlacements_spec hplaced
    obtain ⟨check, hcheck, rfl⟩ := List.mem_map.mp hmem
    exact ⟨file, hfile, check, hcheck, data, capability, hdata, hcapability, rfl⟩
  · rintro ⟨file, hfile, check, hcheck, data, capability, hdata, hcapability, rfl⟩
    obtain ⟨part, hpart, hplaced⟩ := exists_of_mapM_ok hparts hfile
    obtain ⟨data', capability', hdata', hcapability', rfl⟩ := filePlacements_spec hplaced
    rw [hdata, Except.ok.injEq] at hdata'
    rw [← hdata', hcapability, Except.ok.injEq] at hcapability'
    rw [← hcapability'] at hpart
    exact ⟨_, hpart, List.mem_map_of_mem hcheck⟩

/-- What a document says: each check which is published has one entry, and the vocabulary of its suite says whether it
is one of a platform. -/
structure Publishes (workspace : Workspace) (document : BuiltDocument) : Prop where
  names : (document.entries.map BuiltEntry.name).Nodup
  wired : ∀ entry ∈ document.entries, ∃ file ∈ suiteFiles workspace.configs, ∃ check ∈ file.checks,
    IsPublished workspace.classes check ∧ Describes workspace file check entry
  covers : ∀ file ∈ suiteFiles workspace.configs, ∀ check ∈ file.checks, IsPublished workspace.classes check →
    ∃ entry ∈ document.entries, Describes workspace file check entry
  disjoint : ∀ suite ∈ document.suites, suite ∉ document.capabilities ∧ suite ∉ declarableCapabilities
  splits : ∀ entry ∈ document.entries, (∀ capability ∈ entry.capability, capability ∈ declarableCapabilities) →
    (entry.suite ∈ document.capabilities ↔ entry.capability.isSome) ∧
      (entry.suite ∈ document.suites ↔ entry.capability = none)

section Document

variable {workspace : Workspace}

/-- The entries which are built, each with the check which it is of. -/
theorem mem_buildCatalog {entries : List BuiltEntry} (h : buildCatalog workspace = .ok entries) :
    (entries.map BuiltEntry.name).Nodup ∧
      (∀ entry ∈ entries, ∃ file ∈ suiteFiles workspace.configs, ∃ check ∈ file.checks,
        IsPublished workspace.classes check ∧ Describes workspace file check entry) ∧
      ∀ file ∈ suiteFiles workspace.configs, ∀ check ∈ file.checks, IsPublished workspace.classes check →
        ∃ entry ∈ entries, Describes workspace file check entry := by
  obtain ⟨suites, hsuites, hrest⟩ := bind_eq_ok.mp h
  obtain ⟨labels, hlabels, hrest⟩ := bind_eq_ok.mp hrest
  obtain ⟨testIds, htestIds, hrest⟩ := bind_eq_ok.mp hrest
  obtain ⟨found, hfound, hentries⟩ := bind_eq_ok.mp hrest
  cases hentries
  refine ⟨?_, fun entry hentry ↦ ?_, fun file hfile check hcheck hpublished ↦ ?_⟩
  · obtain ⟨parts, -, -, hnodup⟩ := buildSuiteMap_iff.mp hsuites
    have hkeys : List.Forall₂ (fun item result ↦ ∀ entry, result = some entry → BuiltEntry.name entry = item.1)
        suites found := by
      refine (mapM_eq_ok_iff.mp hfound).imp fun item result hresult entry hentry ↦ ?_
      rw [hentry] at hresult
      exact name_of_catalogEntry hresult
    exact (sublist_reduceOption hkeys).nodup hnodup
  · rw [List.reduceOption_mem_iff, mem_of_mapM_ok hfound] at hentry
    obtain ⟨item, hitem, hentry⟩ := hentry
    obtain ⟨file, hfile, check, hcheck, data, capability, hdata, hcapability, rfl⟩ :=
      (mem_buildSuiteMap hsuites).mp hitem
    exact ⟨file, hfile, check, hcheck, (catalogEntry_isSome hentry).mp rfl,
      catalogEntry_describes hlabels htestIds hdata hcapability hentry⟩
  · obtain ⟨part, hpart⟩ : ∃ placed, filePlacements workspace file = .ok placed := by
      obtain ⟨parts, hparts, -, -⟩ := buildSuiteMap_iff.mp hsuites
      obtain ⟨part, -, hpart⟩ := exists_of_mapM_ok hparts hfile
      exact ⟨part, hpart⟩
    obtain ⟨data, capability, hdata, hcapability, -⟩ := filePlacements_spec hpart
    obtain ⟨entry, hentry, hfor⟩ := exists_of_mapM_ok hfound ((mem_buildSuiteMap hsuites).mpr
      ⟨file, hfile, check, hcheck, data, capability, hdata, hcapability, rfl⟩)
    obtain ⟨entry, rfl⟩ := Option.isSome_iff_exists.mp ((catalogEntry_isSome hfor).mpr hpublished)
    exact ⟨entry, List.reduceOption_mem_iff.mpr hentry,
      catalogEntry_describes hlabels htestIds hdata hcapability hfor⟩

theorem mem_suiteVocabularies {capabilities suites : List String}
    (h : suiteVocabularies workspace = .ok (capabilities, suites)) (word : String) :
    (word ∈ capabilities ↔ ∃ file ∈ suiteFiles workspace.configs, vocabularyWord workspace file = .ok (.inl word)) ∧
      (word ∈ suites ↔ ∃ file ∈ suiteFiles workspace.configs, vocabularyWord workspace file = .ok (.inr word)) := by
  obtain ⟨words, hwords, heq⟩ := bind_eq_ok.mp h
  cases heq
  simp only [mem_sortedMembers, List.mem_toFinset, List.mem_filterMap, Sum.getLeft?_eq_some_iff,
    Sum.getRight?_eq_some_iff, exists_eq_right, mem_of_mapM_ok hwords, and_self]

theorem disjoint_of_assert {capabilities suites : List String} {result : Unit}
    (h : assertDisjointVocabulary capabilities suites = .ok result) :
    ∀ suite ∈ suites, suite ∉ capabilities ∧ suite ∉ declarableCapabilities := by
  intro suite hsuite
  unfold assertDisjointVocabulary at h
  dsimp only at h
  split_ifs at h with hnone
  rw [← not_or]
  rintro hreserved
  have hmem : suite ∈ sortedMembers (suites.toFinset ∩ (capabilities.toFinset ∪ declarableCapabilities.toFinset)) := by
    rw [mem_sortedMembers, Finset.mem_inter, Finset.mem_union, List.mem_toFinset, List.mem_toFinset, List.mem_toFinset]
    exact ⟨hsuite, hreserved⟩
  rw [hnone] at hmem
  cases hmem

theorem vocabularyWord_of (workspace : Workspace) {file : ConfigFile} {data : Value} {capability : Option String}
    (hdata : suiteData file = .ok data) (hcapability : declaredCapability data = .ok capability) :
    vocabularyWord workspace file = .ok (wordOf workspace.unicode file capability) :=
  bind_eq_ok.mpr ⟨data, hdata, bind_eq_ok.mpr ⟨capability, hcapability, rfl⟩⟩

end Document

/-- A document which is built says of every check which is published, and of no other, where and with which labels it
is wired. -/
theorem builtDocument_publishes {workspace : Workspace} {version reference : String} {document : BuiltDocument}
    (h : builtDocument workspace version reference = .ok document) : Publishes workspace document := by
  obtain ⟨entries, hentries, hdocument⟩ := bind_eq_ok.mp h
  obtain ⟨⟨capabilities, suites⟩, hvocabularies, hrest⟩ := bind_eq_ok.mp hdocument
  obtain ⟨result, hdisjoint, hrest⟩ := bind_eq_ok.mp hrest
  cases hrest
  obtain ⟨hnames, hwired, hcovers⟩ := mem_buildCatalog hentries
  have hapart := disjoint_of_assert hdisjoint
  refine { names := hnames, wired := hwired, covers := hcovers, disjoint := hapart, splits := ?_ }
  intro entry hentry hdeclarable
  obtain ⟨file, hfile, check, -, -, hdescribes⟩ := hwired entry hentry
  obtain ⟨data, hdata, hcapability, hsuite⟩ := hdescribes.place
  have hword := vocabularyWord_of workspace hdata hcapability
  cases hkind : entry.capability with
  | none =>
    rw [hkind] at hword hsuite
    have hplain : entry.suite ∈ suites :=
      ((mem_suiteVocabularies hvocabularies entry.suite).2).mpr ⟨file, hfile, by rw [hword, hsuite]; rfl⟩
    exact ⟨iff_of_false (hapart _ hplain).1 (by simp), iff_of_true hplain rfl⟩
  | some capability =>
    rw [hkind] at hword hsuite
    have hdeclared : wordOf workspace.unicode file (some capability) = .inl capability :=
      if_pos (hdeclarable capability hkind)
    have hplatform : entry.suite ∈ capabilities :=
      ((mem_suiteVocabularies hvocabularies entry.suite).1).mpr ⟨file, hfile, by rw [hword, hsuite, hdeclared]; rfl⟩
    exact ⟨iff_of_true hplatform rfl, iff_of_false (fun hplain ↦ (hapart _ hplain).1 hplatform) (by simp)⟩

/-- A document of a suite, with the items of one category. -/
def wiringDocument (settings : Items) (items : List Value) : Value :=
  .dict [(.str "tests", .dict ((.str "validations", .dict [(.str "checks", .list items)]) :: settings))]

/-- An item with one check. -/
def checkItem (name : String) (params : Items) : Value := .dict [(.str name, .dict params)]

/-- The checks of the network suite. -/
def networkItems : List Value :=
  [checkItem "PingCheck-fast" [(.str "requires", .list [.str "kubernetes"])],
    checkItem "PodCheck-net" [(.str "labels", .list [.str "slow"])]]

/-- The files of the site, with some items in the network suite. -/
def configsWith (items : List Value) : List ConfigFile :=
  [{ folders := ["suites"]
     stem := "k8s"
     data := some (wiringDocument [(.str "capability", .str "kubernetes")]
      [checkItem "PodCheck" [(.str "labels", .str "smoke"), (.str "test_id", .str "K8S01-01")]]) },
   { folders := ["suites"]
     stem := "network"
     data := some (wiringDocument [] items) },
   { folders := ["providers", "my-isv", "config"]
     stem := "network"
     data := some (wiringDocument [] [checkItem "PingCheck" [(.str "labels", .list [.str "network"])]]) }]

def siteConfigs : List ConfigFile := configsWith networkItems

def siteClasses : List DiscoveredClass :=
  [{ name := "PodCheck", description := "Pods", source := "isvtest.validations.k8s_cluster" },
   { name := "PingCheck", description := "Ping", source := "isvtest.validations.network" }]

def siteWorkspace : Workspace where
  unicode := Runtime.plain.unicode
  repr name := ((Value.scalar name).str?).getD ""
  classes := siteClasses
  configs := siteConfigs

theorem siteWorkspace_isOk : (builtDocument siteWorkspace "1.0.0" "v1.0.0-0-gabc").isOk = true := by decide +kernel

theorem builtDocument_publishes_site : ∃ document, builtDocument siteWorkspace "1.0.0" "v1.0.0-0-gabc" = .ok document ∧
    Publishes siteWorkspace document := by
  obtain ⟨document, hdocument⟩ := exists_of_isOk siteWorkspace_isOk
  exact ⟨document, hdocument, builtDocument_publishes hdocument⟩

/-! ## Another order -/

/-- Two documents which wire the same checks. -/
structure SameWiring (one other : Value) : Prop where
  capability : declaredCapability other.orEmpty = declaredCapability one.orEmpty
  checks : ∀ checks, iterChecksFromData one = .ok checks →
    ∃ found, iterChecksFromData other = .ok found ∧ checks.Perm found

structure ConfigFile.Reorders (one other : ConfigFile) : Prop where
  folders : other.folders = one.folders
  stem : other.stem = one.stem
  data : Option.Rel SameWiring one.data other.data

/-- The same classes, of which each has its own name, and the same wiring, in any order. -/
structure Workspace.Reorders (one other : Workspace) : Prop where
  unicode : other.unicode = one.unicode
  classes : one.classes.Perm other.classes
  names : (one.classes.map DiscoveredClass.name).Nodup
  configs : ∃ between, one.configs.Perm between ∧ List.Forall₂ ConfigFile.Reorders between other.configs

section Classes

variable {classes others : List DiscoveredClass}

theorem classMeta_perm (hperm : classes.Perm others) (hnames : (classes.map DiscoveredClass.name).Nodup)
    (name : String) : classMeta others name = classMeta classes name := by
  have hunique : ∀ one ∈ (classes.filter fun found ↦ !found.catalogExclude).reverse,
      ∀ other ∈ (classes.filter fun found ↦ !found.catalogExclude).reverse,
        decide (one.name = name) = true → decide (other.name = name) = true → one = other := by
    intro one hone other hother hname hname'
    rw [List.mem_reverse, List.mem_filter] at hone hother
    exact List.inj_on_of_nodup_map hnames hone.1 hother.1
      ((of_decide_eq_true hname).trans (of_decide_eq_true hname').symm)
  refine find?_perm_iff.mpr hunique _ ?_
  exact (List.reverse_perm _).trans ((hperm.symm.filter _).trans (List.reverse_perm _).symm)

theorem mem_excludedNames_perm (hperm : classes.Perm others) (name : String) :
    name ∈ excludedNames others ↔ name ∈ excludedNames classes :=
  ((hperm.symm.filter _).map _).mem_iff

theorem wiredClass_perm (hperm : classes.Perm others) (name : Scalar) :
    wiredClass others name = wiredClass classes name := by
  have hkeys : ∀ key, key ∈ classKeys others ↔ key ∈ classKeys classes := by
    intro key
    rw [mem_classKeys, mem_classKeys]
    exact (hperm.symm.map _).mem_iff
  have hnil : classKeys others = [] ↔ classKeys classes = [] := by
    rw [List.eq_nil_iff_forall_not_mem, List.eq_nil_iff_forall_not_mem]
    exact forall_congr' fun key ↦ not_congr (hkeys key)
  unfold wiredClass
  cases name with
  | str name =>
    dsimp only
    rw [resolveClassKey_congr hkeys]
  | _ => simp only [hnil]

theorem catalogEntry_perm {labels labels' testIds testIds' : OrderedMap Scalar (Finset String)}
    (hperm : classes.Perm others) (hnames : (classes.map DiscoveredClass.name).Nodup)
    (hlabels : labels'.membersAt = labels.membersAt) (htestIds : testIds'.membersAt = testIds.membersAt)
    (name : Scalar) (placement : Placement) :
    catalogEntry labels' testIds' name placement others = catalogEntry labels testIds name placement classes := by
  have hentry : entryOf labels' testIds' = entryOf labels testIds := by
    funext name placement description source classLabels
    rw [entryOf, entryOf, hlabels, htestIds]
  simp only [catalogEntry, hentry, hlabels, wiredClass_perm hperm, mem_excludedNames_perm hperm,
    classMeta_perm hperm hnames]

end Classes

section Files

variable {one other : ConfigFile}

/-- A file is walked, and wires its checks in another order. -/
theorem ConfigFile.Reorders.checks_perm (h : one.Reorders other) (hwalked : one.Walked) :
    other.Walked ∧ one.checks.Perm other.checks := by
  have hdata := h.data
  unfold ConfigFile.checks ConfigFile.Walked
  cases hone : one.data with
  | none =>
    rw [hone] at hdata
    cases hother : other.data with
    | none =>
      refine ⟨fun data hnone ↦ ?_, .refl _⟩
      cases hnone
    | some data =>
      rw [hother] at hdata
      cases hdata
  | some data =>
    rw [hone] at hdata
    cases hother : other.data with
    | none =>
      rw [hother] at hdata
      cases hdata
    | some data' =>
      rw [hother, Option.rel_some_some] at hdata
      obtain ⟨checks, hchecks⟩ := hwalked data hone
      obtain ⟨found, hfound, hperm⟩ := hdata.checks checks hchecks
      refine ⟨fun raw hraw ↦ ?_, ?_⟩
      · cases hraw
        exact ⟨found, hfound⟩
      · rw [Option.map_some, Option.map_some, Option.getD_some, Option.getD_some, hchecks, hfound]
        exact hperm

theorem ConfigFile.Reorders.exists_data (h : one.Reorders other) {data : Value} (hdata : suiteData one = .ok data) :
    ∃ found, suiteData other = .ok found ∧ declaredCapability found = declaredCapability data ∧
      ∀ checks, iterChecksFromData data = .ok checks →
        ∃ others, iterChecksFromData found = .ok others ∧ checks.Perm others := by
  have hsame := h.data
  unfold suiteData at hdata ⊢
  cases hone : one.data with
  | none =>
    rw [hone] at hdata
    cases hdata
  | some raw =>
    rw [hone] at hdata hsame
    cases hdata
    cases hother : other.data with
    | none =>
      rw [hother] at hsame
      cases hsame
    | some raw' =>
      rw [hother, Option.rel_some_some] at hsame
      simp only [iterChecksFromData_orEmpty]
      exact ⟨raw'.orEmpty, rfl, hsame.capability, by simpa only [iterChecksFromData_orEmpty] using hsame.checks⟩

variable {workspace workspace' : Workspace}

theorem ConfigFile.Reorders.filePlacements (h : one.Reorders other) (hunicode : workspace'.unicode = workspace.unicode)
    {placed : List (Scalar × Placement)} (hplaced : Catalog.filePlacements workspace one = .ok placed) :
    ∃ found, Catalog.filePlacements workspace' other = .ok found ∧ placed.Perm found := by
  obtain ⟨data, hdata, hrest⟩ := bind_eq_ok.mp hplaced
  obtain ⟨capability, hcapability, hrest⟩ := bind_eq_ok.mp hrest
  obtain ⟨checks, hchecks, heq⟩ := bind_eq_ok.mp hrest
  cases heq
  obtain ⟨data', hdata', hsame, hwired⟩ := h.exists_data hdata
  obtain ⟨found, hfound, hperm⟩ := hwired checks hchecks
  have hsuite : suiteOf workspace'.unicode other capability = suiteOf workspace.unicode one capability := by
    rw [suiteOf, suiteOf, hunicode, h.stem]
  refine ⟨found.map (placedCheck (suiteOf workspace'.unicode other capability) capability), ?_, ?_⟩
  · exact bind_eq_ok.mpr ⟨data', hdata', bind_eq_ok.mpr ⟨capability, hsame.trans hcapability,
      bind_eq_ok.mpr ⟨found, hfound, rfl⟩⟩⟩
  · rw [hsuite]
    exact hperm.map _

theorem ConfigFile.Reorders.vocabularyWord (h : one.Reorders other)
    (hunicode : workspace'.unicode = workspace.unicode) {word : String ⊕ String}
    (hword : Catalog.vocabularyWord workspace one = .ok word) :
    ∃ found, Catalog.vocabularyWord workspace' other = .ok found ∧ word = found := by
  obtain ⟨data, hdata, hrest⟩ := bind_eq_ok.mp hword
  obtain ⟨capability, hcapability, heq⟩ := bind_eq_ok.mp hrest
  cases heq
  obtain ⟨data', hdata', hsame, -⟩ := h.exists_data hdata
  refine ⟨_, vocabularyWord_of workspace' hdata' (hsame.trans hcapability), ?_⟩
  cases capability <;> simp only [wordOf, hunicode, h.stem]

end Files

/-- Where each item which is related to one has a related result, so do the lists. -/
theorem exists_mapM_of_forall₂ {α β ε : Type} {f g : α → Except ε β} {R : α → α → Prop} {S : β → β → Prop}
    (hstep : ∀ one other result, R one other → f one = .ok result → ∃ found, g other = .ok found ∧ S result found)
    {items others : List α} (hrel : List.Forall₂ R items others) {results : List β} (h : items.mapM f = .ok results) :
    ∃ found, others.mapM g = .ok found ∧ List.Forall₂ S results found := by
  induction hrel generalizing results with
  | nil =>
    cases h
    exact ⟨[], rfl, .nil⟩
  | cons hhead _ ih =>
    simp only [List.mapM_cons, bind_eq_ok] at h ⊢
    obtain ⟨result, hresult, rest, hrest, heq⟩ := h
    cases heq
    obtain ⟨found, hfound, hsame⟩ := hstep _ _ result hhead hresult
    obtain ⟨tail, htail, hsames⟩ := ih hrest
    exact ⟨found :: tail, ⟨found, hfound, tail, htail, rfl⟩, .cons hsame hsames⟩

section Reordered

variable {one other : Workspace}

theorem Workspace.Reorders.suiteFiles (h : one.Reorders other) : ∃ between, (Catalog.suiteFiles one.configs).Perm between ∧
    List.Forall₂ ConfigFile.Reorders between (Catalog.suiteFiles other.configs) := by
  obtain ⟨between, hperm, hrel⟩ := h.configs
  refine ⟨Catalog.suiteFiles between, hperm.filter _, List.rel_filter (fun first second hfile ↦ ?_) hrel⟩
  simp only [decide_eq_true_eq, hfile.folders]

/-- The suites are placed alike. -/
theorem Workspace.Reorders.buildSuiteMap (h : one.Reorders other) {suites : List (Scalar × Placement)}
    (hsuites : Catalog.buildSuiteMap one = .ok suites) :
    ∃ found, Catalog.buildSuiteMap other = .ok found ∧ suites.Perm found := by
  obtain ⟨parts, hparts, rfl, hnodup⟩ := buildSuiteMap_iff.mp hsuites
  obtain ⟨between, hperm, hrel⟩ := h.suiteFiles
  obtain ⟨middle, hmiddle, hparts'⟩ := exists_perm_of_mapM_ok hperm hparts
  obtain ⟨found, hfound, hsame⟩ := exists_mapM_of_forall₂
    (fun first second placed hfile hplaced ↦ hfile.filePlacements h.unicode hplaced) hrel hmiddle
  have hflatten : parts.flatten.Perm found.flatten := hparts'.flatten.trans (List.Perm.flatten_congr hsame)
  exact ⟨found.flatten, buildSuiteMap_iff.mpr ⟨found, hfound, rfl, (hflatten.map _).nodup_iff.mp hnodup⟩, hflatten⟩

/-- The vocabularies are the same. -/
theorem Workspace.Reorders.suiteVocabularies (h : one.Reorders other) {vocabularies : List String × List String}
    (hvocabularies : Catalog.suiteVocabularies one = .ok vocabularies) :
    Catalog.suiteVocabularies other = .ok vocabularies := by
  obtain ⟨words, hwords, heq⟩ := bind_eq_ok.mp hvocabularies
  cases heq
  obtain ⟨between, hperm, hrel⟩ := h.suiteFiles
  obtain ⟨middle, hmiddle, hwords'⟩ := exists_perm_of_mapM_ok hperm hwords
  obtain ⟨found, hfound, hsame⟩ := exists_mapM_of_forall₂
    (fun first second word hfile hword ↦ hfile.vocabularyWord h.unicode hword) hrel hmiddle
  rw [List.forall₂_eq_eq_eq] at hsame
  subst hsame
  have hleft := List.toFinset_eq_of_perm _ _ (hwords'.symm.filterMap Sum.getLeft?)
  have hright := List.toFinset_eq_of_perm _ _ (hwords'.symm.filterMap Sum.getRight?)
  refine bind_eq_ok.mpr ⟨middle, hfound, ?_⟩
  rw [hleft, hright]
  rfl

/-- What all the files wire. -/
theorem exists_checks_iff {files : List ConfigFile} {P : WiredCheck → Prop} :
    (∃ file ∈ files, ∃ check ∈ file.checks, P check) ↔ ∃ check ∈ files.flatMap ConfigFile.checks, P check := by
  simp only [List.mem_flatMap]
  constructor
  · rintro ⟨file, hfile, check, hcheck, hP⟩
    exact ⟨check, ⟨file, hfile, hcheck⟩, hP⟩
  · rintro ⟨check, ⟨file, hfile, hcheck⟩, hP⟩
    exact ⟨file, hfile, check, hcheck, hP⟩

theorem checks_perm_of_forall₂ {files others : List ConfigFile} (hrel : List.Forall₂ ConfigFile.Reorders files others)
    (hwalked : ∀ file ∈ files, file.Walked) :
    (∀ file ∈ others, file.Walked) ∧ (files.flatMap ConfigFile.checks).Perm (others.flatMap ConfigFile.checks) := by
  induction hrel with
  | nil => exact ⟨hwalked, .refl _⟩
  | cons hhead _ ih =>
    rw [List.forall_mem_cons] at hwalked ⊢
    obtain ⟨hfirst, hperm⟩ := hhead.checks_perm hwalked.1
    obtain ⟨hrest, hperms⟩ := ih hwalked.2
    rw [List.flatMap_cons, List.flatMap_cons]
    exact ⟨⟨hfirst, hrest⟩, hperm.append hperms⟩

theorem Workspace.Reorders.checks_perm (h : one.Reorders other) (hwalked : ∀ file ∈ one.configs, file.Walked) :
    (∀ file ∈ other.configs, file.Walked) ∧
      (one.configs.flatMap ConfigFile.checks).Perm (other.configs.flatMap ConfigFile.checks) := by
  obtain ⟨between, hperm, hrel⟩ := h.configs
  obtain ⟨hfiles, hchecks⟩ := checks_perm_of_forall₂ hrel fun file hfile ↦ hwalked file (hperm.mem_iff.mpr hfile)
  exact ⟨hfiles, (hperm.flatMap_right _).trans hchecks⟩

/-- The same is stored for each name. -/
theorem Workspace.Reorders.buildCheckAttributeMap (h : one.Reorders other) {extract : Items → Finset String}
    {map : OrderedMap Scalar (Finset String)} (hmap : Catalog.buildCheckAttributeMap one extract = .ok map) :
    ∃ found, Catalog.buildCheckAttributeMap other extract = .ok found ∧ found.membersAt = map.membersAt := by
  obtain ⟨hwalked, htexts⟩ := buildCheckAttributeMap_isOk.mp ⟨map, hmap⟩
  obtain ⟨hwalked', hperm⟩ := h.checks_perm hwalked
  have htexts' : ∀ file ∈ other.configs, ∀ check ∈ file.checks, extract check.params ≠ ∅ →
      ((Value.scalar check.name).str?).isSome := by
    intro file hfile check hcheck hne
    obtain ⟨source, hsource, hmem⟩ := List.mem_flatMap.mp
      (hperm.mem_iff.mpr (List.mem_flatMap.mpr ⟨file, hfile, hcheck⟩))
    exact htexts source hsource check hmem hne
  obtain ⟨found, hfound⟩ := buildCheckAttributeMap_isOk.mpr ⟨hwalked', htexts'⟩
  refine ⟨found, hfound, funext fun key ↦ Finset.ext fun a ↦ ?_⟩
  rw [buildCheckAttributeMap_spec hfound, buildCheckAttributeMap_spec hmap, exists_checks_iff, exists_checks_iff]
  simp only [hperm.mem_iff]

/-- The same entries are built. -/
theorem Workspace.Reorders.buildCatalog (h : one.Reorders other) {entries : List BuiltEntry}
    (hentries : Catalog.buildCatalog one = .ok entries) :
    ∃ found, Catalog.buildCatalog other = .ok found ∧ entries.Perm found := by
  obtain ⟨suites, hsuites, hrest⟩ := bind_eq_ok.mp hentries
  obtain ⟨labels, hlabels, hrest⟩ := bind_eq_ok.mp hrest
  obtain ⟨testIds, htestIds, hrest⟩ := bind_eq_ok.mp hrest
  obtain ⟨results, hresults, heq⟩ := bind_eq_ok.mp hrest
  cases heq
  obtain ⟨suites', hsuites', hperm⟩ := h.buildSuiteMap hsuites
  obtain ⟨labels', hlabels', hlabel⟩ := h.buildCheckAttributeMap hlabels
  obtain ⟨testIds', htestIds', htestId⟩ := h.buildCheckAttributeMap htestIds
  have hsame : (fun item : Scalar × Placement ↦ catalogEntry labels' testIds' item.1 item.2 other.classes) =
      fun item ↦ catalogEntry labels testIds item.1 item.2 one.classes :=
    funext fun item ↦ catalogEntry_perm h.classes h.names hlabel htestId item.1 item.2
  obtain ⟨found, hfound, hresult⟩ := exists_perm_of_mapM_ok hperm hresults
  rw [← hsame] at hfound
  refine ⟨found.reduceOption, ?_, hresult.filterMap id⟩
  exact bind_eq_ok.mpr ⟨suites', hsuites', bind_eq_ok.mpr ⟨labels', hlabels', bind_eq_ok.mpr ⟨testIds', htestIds',
    bind_eq_ok.mpr ⟨found, hfound, rfl⟩⟩⟩⟩

end Reordered

/-- The digest of a document does not depend on the order of its entries, its version or its source. -/
theorem typed_digest_perm (document found : BuiltDocument) (hperm : document.entries.Perm found.entries)
    (hcapabilities : found.capabilities = document.capabilities) (hsuites : found.suites = document.suites)
    (sha256 : ByteArray → String) :
    found.typed.map (catalogDigest sha256) = document.typed.map (catalogDigest sha256) := by
  unfold BuiltDocument.typed
  cases hentries : document.entries.mapM BuiltEntry.typed with
  | none =>
    cases hothers : found.entries.mapM BuiltEntry.typed with
    | none => rfl
    | some typed =>
      obtain ⟨other, hother, -⟩ := exists_perm_of_mapM_some hperm.symm hothers
      rw [hentries] at hother
      cases hother
  | some typed =>
    obtain ⟨other, hother, hsame⟩ := exists_perm_of_mapM_some hperm hentries
    rw [hother]
    refine congrArg some (catalogDigest_eq_of_contract_eq (Contract.ext rfl ?_ ?_ ?_))
    · exact congrArg (fun words ↦ List.toFinset (Field.orEmpty (.value words))) hcapabilities
    · exact congrArg (fun words ↦ List.toFinset (Field.orEmpty (.value words))) hsuites
    · exact Multiset.coe_eq_coe.mpr (hsame.symm.map (CatalogEntry.contract none))

/-- The same classes and the same wiring, in whatever order they are found, make a document with the same entries and
the same digest; so the order decides neither whether there is a catalog nor what identifies it. -/
theorem builtDocument_reorders {one other : Workspace} (h : one.Reorders other) {version reference : String}
    {document : BuiltDocument} (hbuilt : builtDocument one version reference = .ok document)
    (version' reference' : String) (sha256 : ByteArray → String) :
    ∃ found, builtDocument other version' reference' = .ok found ∧ document.entries.Perm found.entries ∧
      found.typed.map (catalogDigest sha256) = document.typed.map (catalogDigest sha256) := by
  obtain ⟨entries, hentries, hdocument⟩ := bind_eq_ok.mp hbuilt
  obtain ⟨⟨capabilities, suites⟩, hvocabularies, hrest⟩ := bind_eq_ok.mp hdocument
  obtain ⟨result, hdisjoint, hrest⟩ := bind_eq_ok.mp hrest
  cases hrest
  obtain ⟨found, hfound, hperm⟩ := h.buildCatalog hentries
  refine ⟨⟨version', reference', capabilities, suites, found⟩, ?_, hperm, ?_⟩
  · exact bind_eq_ok.mpr ⟨found, hfound, bind_eq_ok.mpr ⟨(capabilities, suites), h.suiteVocabularies hvocabularies,
      bind_eq_ok.mpr ⟨result, hdisjoint, rfl⟩⟩⟩
  · exact typed_digest_perm ⟨version, reference, capabilities, suites, entries⟩
      ⟨version', reference', capabilities, suites, found⟩ hperm rfl rfl sha256

theorem SameWiring.refl (data : Value) : SameWiring data data := ⟨rfl, fun checks hchecks ↦ ⟨checks, hchecks, .refl _⟩⟩

/-- The items of a category can stand in any order. -/
theorem SameWiring.of_perm (settings : Items) {items others : List Value} (h : items.Perm others) :
    SameWiring (wiringDocument settings items) (wiringDocument settings others) where
  capability := rfl
  checks := by
    intro checks hchecks
    cases hchecks
    refine ⟨_, rfl, ?_⟩
    simp only [List.flatMap_cons, List.flatMap_nil, List.append_nil]
    exact h.flatMap_right _

theorem ConfigFile.Reorders.refl (file : ConfigFile) : file.Reorders file where
  folders := rfl
  stem := rfl
  data := by
    cases file.data with
    | none => exact .none
    | some data => exact .some (SameWiring.refl data)

/-- The site as another discovery finds it, with the items of a suite in another order. -/
def siteReordered : Workspace :=
  { siteWorkspace with
    classes := siteClasses.reverse
    configs := (configsWith networkItems.reverse).reverse }

theorem siteWorkspace_reorders : siteWorkspace.Reorders siteReordered where
  unicode := rfl
  classes := (List.reverse_perm siteClasses).symm
  names := by decide
  configs := ⟨siteConfigs.reverse, (List.reverse_perm siteConfigs).symm, List.rel_reverse (.cons (.refl _) (.cons
    ⟨rfl, rfl, .some (.of_perm [] (List.reverse_perm networkItems).symm)⟩ (.cons (.refl _) .nil)))⟩

theorem builtDocument_reorders_site : ∃ document found,
    builtDocument siteWorkspace "1.0.0" "v1.0.0-0-gabc" = .ok document ∧
      builtDocument siteReordered "1.0.0" "v1.0.0-0-gabc" = .ok found ∧ document.entries.Perm found.entries := by
  obtain ⟨document, hdocument⟩ := exists_of_isOk siteWorkspace_isOk
  obtain ⟨found, hfound, hperm, -⟩ :=
    builtDocument_reorders siteWorkspace_reorders hdocument "1.0.0" "v1.0.0-0-gabc" fun _ ↦ "5e1f"
  exact ⟨document, found, hdocument, hfound, hperm⟩

end IsvValidation.Catalog
