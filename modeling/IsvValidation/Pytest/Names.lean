import IsvValidation.Library.Labels
import IsvValidation.Pytest.Collection

/-!
# Names of the executed validations

The name of a ready entry is a key twice: of its parameters in the temporary configuration and of
its result. Duplicated names are qualified by joining name, category and a counter with a dash, and
names and categories may contain dashes themselves. The names are distinct, and then every record
is built from the entry's own parameters and result, exactly where no two of these labels coincide.
-/

namespace IsvValidation.Pytest

open Config Host Library Resolution

/-! ## The labels -/

/-- The pair of name and category which is counted. -/
def pairOf (record : ResolvedEntry) : String × String := (record.entry.name, record.entry.category)

theorem qualify_one (name category : String) : qualify name category 1 = name ++ "-" ++ category :=
  rfl

theorem qualify_of_two_le (name category : String) {k : ℕ} (h : 2 ≤ k) :
    qualify name category k = name ++ "-" ++ category ++ "-" ++ toString k := by
  have hne : k ≠ 1 := by omega
  rw [qualify, if_neg hne]
  rfl

/-- The name given to the `k`-th occurrence of a pair. -/
def pytestName (counts : String → ℕ) (occurrence : (String × String) × ℕ) : String :=
  if counts occurrence.1.1 = 1 then occurrence.1.1
  else qualify occurrence.1.1 occurrence.1.2 occurrence.2

theorem pytestName_single {counts : String → ℕ} {record : ResolvedEntry}
    (h : counts record.entry.name = 1) (k : ℕ) :
    pytestName counts (pairOf record, k) = record.entry.name :=
  if_pos h

theorem pytestName_duplicated {counts : String → ℕ} {record : ResolvedEntry}
    (h : counts record.entry.name ≠ 1) (k : ℕ) :
    pytestName counts (pairOf record, k) = qualify record.entry.name record.entry.category k :=
  if_neg h

/-- The loop labels the numbered occurrences of the pairs; pairs of a unique name are not counted,
and need not be. -/
theorem map_name_nameEntries (counts : String → ℕ) (pairCounts : OrderedMap (String × String) ℕ)
    (seen : String × String → ℕ) (records : List ResolvedEntry)
    (hseen : ∀ pair, counts pair.1 ≠ 1 → seen pair = (pairCounts.get? pair).getD 0) :
    (nameEntries counts pairCounts records).map (·.entry.name) =
      (numberFrom seen (records.map pairOf)).map (pytestName counts) := by
  induction records generalizing pairCounts seen with
  | nil => rfl
  | cons record rest ih =>
    rw [nameEntries, List.map_cons, numberFrom, List.map_cons]
    by_cases hcount : counts record.entry.name = 1
    · simp only [if_pos hcount, List.map_cons]
      rw [pytestName_single hcount, ih pairCounts]
      · rfl
      · intro pair hpair
        have hne : pair ≠ pairOf record := by
          intro heq
          rw [heq] at hpair
          exact hpair hcount
        rw [Function.update_of_ne hne]
        exact hseen pair hpair
    · simp only [if_neg hcount, List.map_cons]
      have hstored := hseen (pairOf record) hcount
      rw [pytestName_duplicated hcount, hstored, ih _
        (Function.update seen (pairOf record) ((pairCounts.get? (pairOf record)).getD 0 + 1))]
      · rfl
      · intro pair hpair
        rw [OrderedMap.get?_insert]
        by_cases heq : pair = pairOf record
        · rw [heq, Function.update_self]
          simp [pairOf]
        · have hne : ¬pair = (record.entry.name, record.entry.category) := heq
          rw [Function.update_of_ne heq, if_neg hne]
          exact hseen pair hpair

/-- The names of the executed entries are the labels of the numbered pairs. -/
theorem map_name_entriesWithPytestNames (records : List ResolvedEntry) :
    (entriesWithPytestNames records).map (·.entry.name) =
      (numberFrom (fun _ ↦ 0) ((records.filter ResolvedEntry.isReady).map pairOf)).map
        (pytestName (nameCount (records.filter ResolvedEntry.isReady))) :=
  map_name_nameEntries _ _ _ _ fun _ _ ↦ by rw [OrderedMap.get?_empty, Option.getD_none]

/-! ## Where no two labels coincide -/

/-- How many ready entries carry a pair of name and category. -/
def pairCount (records : List ResolvedEntry) (pair : String × String) : ℕ :=
  records.countP (pairOf · = pair)

/-- The labels of the ready entries are apart: a name which occurs once is no label of a duplicated
one, joining a duplicated name with its category tells the pairs apart, and no such text is another
one with a counter. -/
structure LabelsApart (records : List ResolvedEntry) : Prop where
  unique : ∀ single ∈ records, nameCount records single.entry.name = 1 →
    ∀ record ∈ records, nameCount records record.entry.name ≠ 1 →
      single.entry.name ≠ record.entry.name ++ "-" ++ record.entry.category ∧
      ∀ k, 2 ≤ k → k ≤ pairCount records (pairOf record) →
        single.entry.name ≠
          record.entry.name ++ "-" ++ record.entry.category ++ "-" ++ toString k
  joined : ∀ record ∈ records, nameCount records record.entry.name ≠ 1 →
    ∀ other ∈ records, nameCount records other.entry.name ≠ 1 →
      record.entry.name ++ "-" ++ record.entry.category =
        other.entry.name ++ "-" ++ other.entry.category → pairOf record = pairOf other
  counted : ∀ record ∈ records, nameCount records record.entry.name ≠ 1 →
    ∀ other ∈ records, nameCount records other.entry.name ≠ 1 →
      ∀ k, 2 ≤ k → k ≤ pairCount records (pairOf other) →
        record.entry.name ++ "-" ++ record.entry.category ≠
          other.entry.name ++ "-" ++ other.entry.category ++ "-" ++ toString k

section Apart

variable {records : List ResolvedEntry}

/-- A name which occurs once belongs to a pair which occurs once. -/
theorem pairCount_le_nameCount (records : List ResolvedEntry) (pair : String × String) :
    pairCount records pair ≤ nameCount records pair.1 := by
  apply List.countP_mono_left
  intro record _ hpair
  have heq : pairOf record = pair := by simpa using hpair
  simp [← heq, pairOf]

theorem countP_map_pairOf (pair : String × String) :
    (records.map pairOf).countP (· = pair) = pairCount records pair := by
  rw [List.countP_map]
  rfl

theorem mem_of_pairCount_pos {pair : String × String} (h : 1 ≤ pairCount records pair) :
    ∃ record ∈ records, pairOf record = pair := by
  obtain ⟨record, hrecord, hpair⟩ := List.countP_pos_iff.mp h
  exact ⟨record, hrecord, by simpa using hpair⟩

/-- Two entries which share a name that occurs once share their category. -/
theorem pairOf_eq_of_nameCount_eq_one {record other : ResolvedEntry} (hrecord : record ∈ records)
    (hother : other ∈ records) (hcount : nameCount records record.entry.name = 1)
    (hname : record.entry.name = other.entry.name) : pairOf record = pairOf other := by
  have hfilter : (records.filter fun r ↦ r.entry.name = record.entry.name).length = 1 := by
    rw [← List.countP_eq_length_filter]
    exact hcount
  obtain ⟨only, honly⟩ := List.length_eq_one_iff.mp hfilter
  have hmem : record ∈ records.filter fun r ↦ r.entry.name = record.entry.name :=
    List.mem_filter.mpr ⟨hrecord, by simp⟩
  have hmem' : other ∈ records.filter fun r ↦ r.entry.name = record.entry.name :=
    List.mem_filter.mpr ⟨hother, by simp [hname]⟩
  rw [honly, List.mem_singleton] at hmem hmem'
  rw [hmem, hmem']

/-- A label with a counter determines the pair and the counter among labels which are apart. -/
theorem LabelsApart.qualify_injective (h : LabelsApart records) {record other : ResolvedEntry}
    {k l : ℕ} (hrecord : record ∈ records) (hother : other ∈ records)
    (hdup : nameCount records record.entry.name ≠ 1)
    (hdup' : nameCount records other.entry.name ≠ 1) (hk : 1 ≤ k)
    (hkc : k ≤ pairCount records (pairOf record)) (hl : 1 ≤ l)
    (hlc : l ≤ pairCount records (pairOf other))
    (heq : qualify record.entry.name record.entry.category k =
      qualify other.entry.name other.entry.category l) : pairOf record = pairOf other ∧ k = l := by
  rcases Nat.lt_or_ge 1 k with hk2 | hk1
  · rw [qualify_of_two_le _ _ hk2] at heq
    rcases Nat.lt_or_ge 1 l with hl2 | hl1
    · rw [qualify_of_two_le _ _ hl2] at heq
      have hparts := append_dash_number_injective heq
      exact ⟨h.joined record hrecord hdup other hother hdup' hparts.1, hparts.2⟩
    · have hone : l = 1 := by omega
      subst hone
      rw [qualify_one] at heq
      exact absurd heq.symm (h.counted other hother hdup' record hrecord hdup k hk2 hkc)
  · have hone : k = 1 := by omega
    subst hone
    rw [qualify_one] at heq
    rcases Nat.lt_or_ge 1 l with hl2 | hl1
    · rw [qualify_of_two_le _ _ hl2] at heq
      exact absurd heq (h.counted record hrecord hdup other hother hdup' l hl2 hlc)
    · have hone : l = 1 := by omega
      subst hone
      rw [qualify_one] at heq
      exact ⟨h.joined record hrecord hdup other hother hdup' heq, rfl⟩

/-- A name which occurs once is no label of a duplicated name. -/
theorem LabelsApart.single_ne_qualify (h : LabelsApart records) {single record : ResolvedEntry}
    {k : ℕ} (hsingle : single ∈ records) (hrecord : record ∈ records)
    (hone : nameCount records single.entry.name = 1)
    (hdup : nameCount records record.entry.name ≠ 1) (hk : 1 ≤ k)
    (hkc : k ≤ pairCount records (pairOf record)) :
    single.entry.name ≠ qualify record.entry.name record.entry.category k := by
  have happart := h.unique single hsingle hone record hrecord hdup
  rcases Nat.lt_or_ge 1 k with hk2 | hk1
  · rw [qualify_of_two_le _ _ hk2]
    exact happart.2 k hk2 hkc
  · have hkone : k = 1 := by omega
    rw [hkone, qualify_one]
    exact happart.1

/-- The labels of the numbered pairs are distinct exactly where they are apart. -/
theorem nodup_pytestNames_iff :
    ((numberFrom (fun _ ↦ 0) (records.map pairOf)).map (pytestName (nameCount records))).Nodup ↔
      LabelsApart records := by
  rw [nodup_map_numberFrom]
  simp only [countP_map_pairOf]
  constructor
  · intro hinj
    have hpos {record : ResolvedEntry} (hrecord : record ∈ records) :
        1 ≤ pairCount records (pairOf record) :=
      List.countP_pos_iff.mpr ⟨record, hrecord, by simp⟩
    constructor
    · intro single hmem hone record hrecord hdup
      have hne : ∀ k, 1 ≤ k → k ≤ pairCount records (pairOf record) →
          single.entry.name ≠ qualify record.entry.name record.entry.category k := by
        intro k hk hkc heq
        rw [← pytestName_single hone 1,
          ← pytestName_duplicated hdup k] at heq
        have hpair := (hinj _ _ _ _ le_rfl (hpos hmem) hk hkc heq).1
        have hname : single.entry.name = record.entry.name := congrArg Prod.fst hpair
        exact hdup (hname ▸ hone)
      refine ⟨?_, fun k hk hkc ↦ ?_⟩
      · rw [← qualify_one]
        exact hne 1 le_rfl (hpos hrecord)
      · rw [← qualify_of_two_le _ _ hk]
        exact hne k (by omega) hkc
    · intro record hrecord hdup other hother hdup' heq
      rw [← qualify_one, ← qualify_one, ← pytestName_duplicated hdup,
        ← pytestName_duplicated hdup'] at heq
      exact (hinj _ _ _ _ le_rfl (hpos hrecord) le_rfl (hpos hother) heq).1
    · intro record hrecord hdup other hother hdup' k hk hkc heq
      rw [← qualify_one, ← qualify_of_two_le _ _ hk, ← pytestName_duplicated hdup,
        ← pytestName_duplicated hdup'] at heq
      have hone := (hinj _ _ _ _ le_rfl (hpos hrecord) (by omega) hkc heq).2
      omega
  · intro happart a b k l hk hka hl hlb heq
    obtain ⟨record, hrecord, rfl⟩ := mem_of_pairCount_pos (le_trans hk hka)
    obtain ⟨other, hother, rfl⟩ := mem_of_pairCount_pos (le_trans hl hlb)
    have hk1 := le_trans hka (pairCount_le_nameCount records (pairOf record))
    have hl1 := le_trans hlb (pairCount_le_nameCount records (pairOf other))
    simp only [pairOf] at hk1 hl1
    by_cases hone : nameCount records record.entry.name = 1
    · rw [pytestName_single hone] at heq
      by_cases hone' : nameCount records other.entry.name = 1
      · rw [pytestName_single hone'] at heq
        rw [hone] at hk1
        rw [hone'] at hl1
        exact ⟨pairOf_eq_of_nameCount_eq_one hrecord hother hone heq, by omega⟩
      · rw [pytestName_duplicated hone'] at heq
        exact absurd heq (happart.single_ne_qualify hrecord hother hone hone' hl hlb)
    · rw [pytestName_duplicated hone] at heq
      by_cases hone' : nameCount records other.entry.name = 1
      · rw [pytestName_single hone'] at heq
        exact absurd heq.symm (happart.single_ne_qualify hother hrecord hone' hone hk hka)
      · rw [pytestName_duplicated hone'] at heq
        exact happart.qualify_injective hrecord hother hone hone' hk hka hl hlb heq

end Apart

/-! ## Results -/

section Results

variable (host : Runtime)

/-- What a session captures in which `execute` decides the result of every stored validation. -/
def sessionResults (execute : String × Items → Option ValidationResult)
    (request : SessionRequest) : List ValidationResult :=
  (getAllValidations host request).entries.filterMap fun item ↦
    (execute item).map fun result ↦ { result with name := item.1 }

/-- The record of an entry, built from the execution of its own name and parameters. -/
def ownRecord (execute : String × Items → Option ValidationResult) (named : ResolvedEntry) :
    ResolvedEntry :=
  match execute (named.entry.name, reloadParams host (named.renderedParams.getD [])) with
  | none => deselected named
  | some result => resultToResolvedEntry named result

/-- Names and results are never crossed: the executed entries are the ready ones under distinct
names, the session stores their own parameters under each of these names, and in whatever order
the results of the executions are captured, every record is built from the entry's own. -/
structure ResultsKept (records : List ResolvedEntry) : Prop where
  renamed : List.Forall₂ (fun record named ↦ ∃ key, named = rename record key)
    (records.filter ResolvedEntry.isReady) (entriesWithPytestNames records)
  distinct : ((entriesWithPytestNames records).map (·.entry.name)).Nodup
  ownParams : ∀ request : SessionRequest,
    request.validations = pytestValidations (entriesWithPytestNames records) →
      ∀ named ∈ entriesWithPytestNames records,
        (getAllValidations host request).get? named.entry.name =
          some (reloadParams host (named.renderedParams.getD []))
  ownResult : ∀ (request : SessionRequest) (execute : String × Items → Option ValidationResult)
    (results : List ValidationResult),
    request.validations = pytestValidations (entriesWithPytestNames records) →
      results.Perm (sessionResults host execute request) →
        applyPytestResults (entriesWithPytestNames records) results =
          (entriesWithPytestNames records).map (ownRecord host execute)

/-- The captured results carry names of executed entries, each at most once. -/
theorem map_name_captured_sublist (execute : ResolvedEntry → Option ValidationResult)
    (named : List ResolvedEntry) :
    List.Sublist
      ((named.filterMap fun record ↦
        (execute record).map fun result ↦ { result with name := record.entry.name }).map (·.name))
      (named.map (·.entry.name)) := by
  induction named with
  | nil => exact List.Sublist.refl _
  | cons record rest ih =>
    cases hresult : execute record with
    | none =>
      rw [List.filterMap_cons_none (by rw [hresult]; rfl), List.map_cons]
      exact ih.cons _
    | some result =>
      rw [List.filterMap_cons_some (by rw [hresult]; rfl), List.map_cons, List.map_cons]
      exact ih.cons_cons _

/-- Entries with distinct names find their own result, in whatever order the results come. -/
theorem applyPytestResults_captured {named : List ResolvedEntry} {results : List ValidationResult}
    {execute : ResolvedEntry → Option ValidationResult}
    (hnodup : (named.map (·.entry.name)).Nodup)
    (hperm : results.Perm (named.filterMap fun record ↦
      (execute record).map fun result ↦ { result with name := record.entry.name })) :
    applyPytestResults named results = named.map fun record ↦
      match execute record with
      | none => deselected record
      | some result => resultToResolvedEntry record result := by
  have hnames : ((results.map fun result ↦ (result.name, result)).map Prod.fst).Nodup := by
    rw [List.map_map]
    apply ((hperm.map (·.name)).nodup_iff).mpr
    exact hnodup.sublist (map_name_captured_sublist execute named)
  have hlookup (name : String) (result : ValidationResult) :
      (resultsByName results).get? name = some result ↔
        ∃ record ∈ named, ∃ raw, execute record = some raw ∧ record.entry.name = name ∧
          result = { raw with name := name } := by
    rw [resultsByName, OrderedMap.get?_ofList hnames]
    simp only [List.mem_map, Prod.mk.injEq, hperm.mem_iff, List.mem_filterMap, Option.map_eq_some_iff]
    constructor
    · rintro ⟨_, ⟨record, hrecord, raw, hraw, rfl⟩, rfl, rfl⟩
      exact ⟨record, hrecord, raw, hraw, rfl, rfl⟩
    · rintro ⟨record, hrecord, raw, hraw, rfl, rfl⟩
      exact ⟨_, ⟨record, hrecord, raw, hraw, rfl⟩, rfl, rfl⟩
  apply List.map_congr_left
  intro record hrecord
  cases hexecuted : execute record with
  | some raw =>
    have hfound := (hlookup record.entry.name _).mpr ⟨record, hrecord, raw, hexecuted, rfl, rfl⟩
    simp only [hfound]
    rfl
  | none =>
    have hmissing : (resultsByName results).get? record.entry.name = none := by
      rw [Option.eq_none_iff_forall_ne_some]
      intro result hresult
      obtain ⟨other, hother, raw, hraw, hname, _⟩ := (hlookup _ _).mp hresult
      have hsame : other = record := List.inj_on_of_nodup_map hnodup hother hrecord hname
      rw [hsame, hexecuted] at hraw
      cases hraw
    simp only [hmissing]

/-- An execution without a shared name keeps every entry's own result. -/
theorem resultsKept_of_nodup {records : List ResolvedEntry}
    (hnodup : ((entriesWithPytestNames records).map (·.entry.name)).Nodup) :
    ResultsKept host records := by
  have hown : ∀ request : SessionRequest,
      request.validations = pytestValidations (entriesWithPytestNames records) →
        (getAllValidations host request).entries =
          (entriesWithPytestNames records).map fun named ↦
            (named.entry.name, reloadParams host (named.renderedParams.getD [])) := by
    intro request hrequest
    rw [getAllValidations, hrequest, pytestValidations, List.map_map]
    apply OrderedMap.entries_ofList
    rw [List.map_map]
    exact hnodup
  constructor
  · unfold entriesWithPytestNames
    exact nameEntries_forall₂ _ _ _
  · exact hnodup
  · intro request hrequest named hnamed
    apply OrderedMap.mem_entries_iff.mp
    rw [hown request hrequest]
    exact List.mem_map_of_mem hnamed
  · intro request execute results hrequest hperm
    have hsession : sessionResults host execute request =
        (entriesWithPytestNames records).filterMap fun named ↦
          (execute (named.entry.name, reloadParams host (named.renderedParams.getD []))).map
            fun result ↦ { result with name := named.entry.name } := by
      rw [sessionResults, hown request hrequest, List.filterMap_map]
      rfl
    rw [hsession] at hperm
    exact applyPytestResults_captured hnodup hperm

/-- Names and results are never crossed exactly where the labels of the ready entries are apart. -/
theorem results_kept_iff (records : List ResolvedEntry) :
    ResultsKept host records ↔ LabelsApart (records.filter ResolvedEntry.isReady) := by
  rw [← nodup_pytestNames_iff, ← map_name_entriesWithPytestNames]
  exact ⟨ResultsKept.distinct, resultsKept_of_nodup host⟩

/-- A check which is declared in two categories takes the name of a variant. -/
theorem variant_name_taken :
    ¬ResultsKept Runtime.plain
      [{ entry := ⟨"PingCheck", "gpu", .dict [], none, none, [], []⟩, renderedParams := some [] },
        { entry := ⟨"PingCheck", "network", .dict [], none, none, [], []⟩, renderedParams := some [] },
        { entry := ⟨"PingCheck-gpu", "gpu", .dict [], none, none, [], []⟩
          renderedParams := some [] }] := by
  intro h
  exact absurd h.distinct (by decide +kernel)

end Results

end IsvValidation.Pytest
