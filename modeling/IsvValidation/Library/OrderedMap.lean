import Mathlib.Algebra.BigOperators.Group.List.Basic
import Mathlib.Data.List.Induction
import Mathlib.Data.List.Nodup

/-!
# Insertion-ordered maps

A map which remembers the order in which its keys were first inserted, with one entry for each
key carried as a field. Assigning to a key that is present replaces its value in place; a new key
goes to the end. `insertWith` folds a value into the one already stored, and the fold over a list
of items is described through additive weights: the weight stored under a key is the sum of the
weights of the items which carry that key.
-/

namespace IsvValidation.Library

/-- Entries in insertion order, one for each key. -/
structure OrderedMap (κ ν : Type*) where
  entries : List (κ × ν)
  nodup : (entries.map Prod.fst).Nodup

namespace OrderedMap

variable {κ ν : Type*}

def empty : OrderedMap κ ν := ⟨[], List.nodup_nil⟩

def keys (map : OrderedMap κ ν) : List κ := map.entries.map Prod.fst

def values (map : OrderedMap κ ν) : List ν := map.entries.map Prod.snd

@[simp] theorem keys_empty : (empty : OrderedMap κ ν).keys = [] := rfl

theorem nodup_keys (map : OrderedMap κ ν) : map.keys.Nodup := map.nodup

section Lookup

variable [DecidableEq κ]

/-- Replace the value stored under a key in place, or append a new entry. -/
def setEntry (key : κ) (value : ν) : List (κ × ν) → List (κ × ν)
  | [] => [(key, value)]
  | (other, old) :: rest =>
    if other = key then (key, value) :: rest else (other, old) :: setEntry key value rest

theorem map_fst_setEntry (key : κ) (value : ν) (entries : List (κ × ν)) :
    (setEntry key value entries).map Prod.fst =
      if key ∈ entries.map Prod.fst then entries.map Prod.fst
      else entries.map Prod.fst ++ [key] := by
  induction entries with
  | nil => simp [setEntry]
  | cons entry rest ih =>
    obtain ⟨other, old⟩ := entry
    by_cases hkey : other = key
    · simp [setEntry, hkey]
    · have hne : key ≠ other := fun h ↦ hkey h.symm
      simp only [setEntry, if_neg hkey, List.map_cons, ih, List.mem_cons, hne, false_or]
      split <;> simp

theorem nodup_setEntry (key : κ) (value : ν) {entries : List (κ × ν)}
    (h : (entries.map Prod.fst).Nodup) : ((setEntry key value entries).map Prod.fst).Nodup := by
  rw [map_fst_setEntry]
  split
  · exact h
  · rename_i hnot
    refine List.nodup_append.mpr ⟨h, List.nodup_singleton key, ?_⟩
    rintro a ha b hb rfl
    exact hnot (List.mem_singleton.mp hb ▸ ha)

/-- The value stored under a key. -/
def get? (map : OrderedMap κ ν) (key : κ) : Option ν := map.entries.lookup key

def insert (map : OrderedMap κ ν) (key : κ) (value : ν) : OrderedMap κ ν :=
  ⟨setEntry key value map.entries, nodup_setEntry key value map.nodup⟩

/-- Fold a value into the one stored under a key, or store it when there is none. -/
def insertWith (combine : ν → ν → ν) (map : OrderedMap κ ν) (key : κ) (value : ν) :
    OrderedMap κ ν :=
  match map.get? key with
  | none => map.insert key value
  | some old => map.insert key (combine old value)

/-- Assign each pair in turn, so that a later pair with the same key wins. -/
def ofList (pairs : List (κ × ν)) : OrderedMap κ ν :=
  pairs.foldl (fun map pair ↦ map.insert pair.1 pair.2) empty

private theorem lookup_cons_eq_ite (key other : κ) (value : ν) (rest : List (κ × ν)) :
    ((other, value) :: rest).lookup key = if key = other then some value else rest.lookup key := by
  rw [List.lookup_cons]
  by_cases h : key = other
  · simp [h]
  · simp [h, beq_eq_false_iff_ne.mpr h]

private theorem lookup_setEntry (key other : κ) (value : ν) (entries : List (κ × ν)) :
    (setEntry key value entries).lookup other =
      if other = key then some value else entries.lookup other := by
  induction entries with
  | nil => rw [setEntry, lookup_cons_eq_ite]
  | cons entry rest ih =>
    obtain ⟨k, v⟩ := entry
    by_cases hk : k = key
    · subst hk
      rw [setEntry, if_pos rfl, lookup_cons_eq_ite, lookup_cons_eq_ite]
      split <;> rfl
    · rw [setEntry, if_neg hk, lookup_cons_eq_ite, lookup_cons_eq_ite, ih]
      by_cases h : other = k
      · rw [if_pos h, if_pos h, if_neg (fun heq ↦ hk (h ▸ heq))]
      · rw [if_neg h, if_neg h]

@[simp] theorem get?_empty (key : κ) : (empty : OrderedMap κ ν).get? key = none := rfl

@[simp] theorem get?_insert (map : OrderedMap κ ν) (key other : κ) (value : ν) :
    (map.insert key value).get? other = if other = key then some value else map.get? other :=
  lookup_setEntry key other value map.entries

theorem keys_insert (map : OrderedMap κ ν) (key : κ) (value : ν) :
    (map.insert key value).keys = if key ∈ map.keys then map.keys else map.keys ++ [key] :=
  map_fst_setEntry key value map.entries

theorem mem_keys_insert {map : OrderedMap κ ν} {key other : κ} {value : ν} :
    other ∈ (map.insert key value).keys ↔ other = key ∨ other ∈ map.keys := by
  rw [keys_insert]
  split
  · rename_i hmem
    exact ⟨Or.inr, fun h ↦ h.elim (fun heq ↦ heq ▸ hmem) id⟩
  · rw [List.mem_append, List.mem_singleton, or_comm]

/-- The entries are exactly the pairs which the lookup finds. -/
theorem mem_entries_iff {map : OrderedMap κ ν} {key : κ} {value : ν} :
    (key, value) ∈ map.entries ↔ map.get? key = some value := by
  obtain ⟨entries, nodup⟩ := map
  simp only [get?]
  induction entries with
  | nil => simp
  | cons entry rest ih =>
    obtain ⟨k, v⟩ := entry
    rw [List.map_cons, List.nodup_cons] at nodup
    rw [lookup_cons_eq_ite, List.mem_cons]
    by_cases h : key = k
    · have hnot : (key, value) ∉ rest := fun hmem ↦
        nodup.1 (List.mem_map.mpr ⟨_, hmem, h⟩)
      simp [h, h ▸ hnot, eq_comm]
    · simp [h, ih nodup.2]

theorem mem_keys_iff {map : OrderedMap κ ν} {key : κ} :
    key ∈ map.keys ↔ ∃ value, map.get? key = some value := by
  simp only [keys, List.mem_map, Prod.exists, exists_and_right, exists_eq_right, mem_entries_iff]

theorem get?_eq_none_iff {map : OrderedMap κ ν} {key : κ} :
    map.get? key = none ↔ key ∉ map.keys := by
  rw [mem_keys_iff, Option.eq_none_iff_forall_ne_some, not_exists]

theorem mem_entries_insert {map : OrderedMap κ ν} {key : κ} {value : ν} {entry : κ × ν}
    (h : entry ∈ (map.insert key value).entries) : entry = (key, value) ∨ entry ∈ map.entries := by
  have hget : (map.insert key value).get? entry.1 = some entry.2 := mem_entries_iff.mp h
  rw [get?_insert] at hget
  split at hget
  · rename_i hkey
    exact Or.inl (Prod.ext hkey (Option.some.inj hget).symm)
  · exact Or.inr (mem_entries_iff.mpr hget)

/-- Assigning what is stored already changes nothing. -/
theorem insert_of_get? {map : OrderedMap κ ν} {key : κ} {value : ν}
    (h : map.get? key = some value) : map.insert key value = map := by
  have hentries : ∀ entries : List (κ × ν), entries.lookup key = some value →
      setEntry key value entries = entries := by
    intro entries hlookup
    induction entries with
    | nil => cases hlookup
    | cons entry rest ih =>
      rw [lookup_cons_eq_ite] at hlookup
      rw [setEntry]
      by_cases hkey : key = entry.1
      · rw [if_pos hkey, Option.some.injEq] at hlookup
        rw [if_pos hkey.symm, hkey, ← hlookup]
      · rw [if_neg hkey] at hlookup
        rw [if_neg fun heq ↦ hkey heq.symm, ih hlookup]
  rw [insert, OrderedMap.mk.injEq]
  exact hentries map.entries h

/-- Filtering the entries by a key leaves what is stored under it. -/
theorem filter_entries (map : OrderedMap κ ν) (key : κ) :
    (map.entries.filter fun entry ↦ entry.1 = key) = ((map.get? key).map (key, ·)).toList := by
  obtain ⟨entries, nodup⟩ := map
  simp only [get?]
  induction entries with
  | nil => rfl
  | cons entry rest ih =>
    obtain ⟨k, v⟩ := entry
    rw [List.map_cons, List.nodup_cons] at nodup
    rw [lookup_cons_eq_ite, List.filter_cons]
    by_cases h : k = key
    · have hrest : (rest.filter fun entry ↦ entry.1 = key) = [] := by
        rw [List.filter_eq_nil_iff]
        intro entry hmem heq
        exact nodup.1 (List.mem_map.mpr ⟨entry, hmem, by simpa [h] using heq⟩)
      simp [h, hrest]
    · simp only [h, decide_false, Bool.false_eq_true, if_false, Ne.symm h]
      exact ih nodup.2

theorem entries_insert_of_notMem {map : OrderedMap κ ν} {key : κ} {value : ν}
    (h : key ∉ map.keys) : (map.insert key value).entries = map.entries ++ [(key, value)] := by
  obtain ⟨entries, nodup⟩ := map
  change key ∉ entries.map Prod.fst at h
  change setEntry key value entries = entries ++ [(key, value)]
  clear nodup
  induction entries with
  | nil => rfl
  | cons entry rest ih =>
    rw [List.map_cons, List.mem_cons, not_or] at h
    rw [setEntry, if_neg (fun heq ↦ h.1 heq.symm), ih h.2, List.cons_append]

@[simp] theorem ofList_nil : (ofList [] : OrderedMap κ ν) = empty := rfl

@[simp] theorem ofList_append_singleton (pairs : List (κ × ν)) (pair : κ × ν) :
    ofList (pairs ++ [pair]) = (ofList pairs).insert pair.1 pair.2 := by
  simp [ofList, List.foldl_append]

theorem mem_keys_ofList {pairs : List (κ × ν)} {key : κ} :
    key ∈ (ofList pairs).keys ↔ key ∈ pairs.map Prod.fst := by
  induction pairs using List.reverseRecOn with
  | nil => simp
  | append_singleton pairs pair ih =>
    simp [mem_keys_insert, ih, or_comm]

/-- What is stored comes from one of the pairs. -/
theorem mem_ofList {pairs : List (κ × ν)} {key : κ} {value : ν}
    (h : (ofList pairs).get? key = some value) : (key, value) ∈ pairs := by
  induction pairs using List.reverseRecOn with
  | nil => simp at h
  | append_singleton pairs pair ih =>
    rw [ofList_append_singleton, get?_insert] at h
    split at h
    · rename_i heq
      rw [List.mem_append, List.mem_singleton]
      exact Or.inr (Prod.ext heq (Option.some.inj h).symm)
    · exact List.mem_append_left _ (ih h)

/-- Distinct keys are stored as they come. -/
theorem entries_ofList {pairs : List (κ × ν)} (h : (pairs.map Prod.fst).Nodup) :
    (ofList pairs).entries = pairs := by
  induction pairs using List.reverseRecOn with
  | nil => rfl
  | append_singleton pairs pair ih =>
    rw [List.map_append, List.nodup_append] at h
    have hfresh : pair.1 ∉ (ofList pairs).keys := by
      rw [mem_keys_ofList]
      exact fun hmem ↦ h.2.2 _ hmem pair.1 (List.mem_singleton_self _) rfl
    rw [ofList_append_singleton, entries_insert_of_notMem hfresh, ih h.1]

theorem get?_ofList {pairs : List (κ × ν)} (h : (pairs.map Prod.fst).Nodup) {key : κ} {value : ν} :
    (ofList pairs).get? key = some value ↔ (key, value) ∈ pairs := by
  rw [← mem_entries_iff, entries_ofList h]

/-- Assigning a list of pairs to a map leaves the other keys. -/
theorem get?_foldl_insert_of_notMem {pairs : List (κ × ν)} {map : OrderedMap κ ν} {key : κ}
    (h : key ∉ pairs.map Prod.fst) :
    (pairs.foldl (fun map pair ↦ map.insert pair.1 pair.2) map).get? key = map.get? key := by
  induction pairs generalizing map with
  | nil => rfl
  | cons pair rest ih =>
    rw [List.map_cons, List.mem_cons, not_or] at h
    rw [List.foldl_cons, ih h.2, get?_insert, if_neg h.1]

/-- Assigning pairs with distinct keys to a map stores each of them. -/
theorem get?_foldl_insert_of_mem {pairs : List (κ × ν)} {map : OrderedMap κ ν} {key : κ}
    {value : ν} (hnodup : (pairs.map Prod.fst).Nodup) (h : (key, value) ∈ pairs) :
    (pairs.foldl (fun map pair ↦ map.insert pair.1 pair.2) map).get? key = some value := by
  induction pairs generalizing map with
  | nil => exact absurd h List.not_mem_nil
  | cons pair rest ih =>
    rw [List.map_cons, List.nodup_cons] at hnodup
    rw [List.foldl_cons]
    rcases List.mem_cons.mp h with rfl | hmem
    · rw [get?_foldl_insert_of_notMem hnodup.1, get?_insert, if_pos rfl]
    · exact ih hnodup.2 hmem

/-- A dictionary comprehension with a condition on the key. -/
def filterKeys (p : κ → Bool) (map : OrderedMap κ ν) : OrderedMap κ ν :=
  ⟨map.entries.filter fun entry ↦ p entry.1,
    map.nodup.sublist (List.Sublist.map Prod.fst List.filter_sublist)⟩

theorem get?_filterKeys (p : κ → Bool) (map : OrderedMap κ ν) (key : κ) :
    (map.filterKeys p).get? key = if p key then map.get? key else none := by
  apply Option.ext
  intro value
  rw [← mem_entries_iff, filterKeys, List.mem_filter]
  by_cases hkey : p key = true
  · simp [hkey, mem_entries_iff]
  · simp [hkey]

/-- A dictionary comprehension over the values. -/
def mapValues {μ : Type*} (f : ν → μ) (map : OrderedMap κ ν) : OrderedMap κ μ :=
  ⟨map.entries.map fun entry ↦ (entry.1, f entry.2), by
    rw [List.map_map]
    exact map.nodup⟩

omit [DecidableEq κ] in
@[simp] theorem keys_mapValues {μ : Type*} (f : ν → μ) (map : OrderedMap κ ν) :
    (map.mapValues f).keys = map.keys := by
  rw [keys, mapValues, List.map_map]
  rfl

@[simp] theorem get?_mapValues {μ : Type*} (f : ν → μ) (map : OrderedMap κ ν) (key : κ) :
    (map.mapValues f).get? key = (map.get? key).map f := by
  apply Option.ext
  intro value
  rw [← mem_entries_iff, mapValues, List.mem_map, Option.map_eq_some_iff]
  constructor
  · rintro ⟨entry, hentry, heq⟩
    rw [Prod.mk.injEq] at heq
    exact ⟨entry.2, mem_entries_iff.mp (heq.1 ▸ hentry), heq.2⟩
  · rintro ⟨stored, hstored, rfl⟩
    exact ⟨(key, stored), mem_entries_iff.mpr hstored, rfl⟩

theorem mapValues_insert {μ : Type*} (f : ν → μ) (map : OrderedMap κ ν) (key : κ) (value : ν) :
    (map.insert key value).mapValues f = (map.mapValues f).insert key (f value) := by
  have hset : ∀ entries : List (κ × ν), (setEntry key value entries).map (fun entry ↦ (entry.1, f entry.2)) =
      setEntry key (f value) (entries.map fun entry ↦ (entry.1, f entry.2)) := by
    intro entries
    induction entries with
    | nil => rfl
    | cons entry rest ih =>
      rw [List.map_cons, setEntry, setEntry, ← ih]
      split <;> rfl
  rw [mapValues, insert, mapValues, insert]
  congr 1
  exact hset map.entries

section Loop

variable {ι : Type*} {name : ι → κ} {next : ι → Option ν → Option ν}
  {step : OrderedMap κ ν → ι → OrderedMap κ ν} {items : List ι}

/-- A loop which settles one key in each pass leaves the others alone. -/
theorem get?_foldl_of_notMem (hstep : ∀ map item key, (step map item).get? key =
      if key = name item then next item (map.get? key) else map.get? key)
    {map : OrderedMap κ ν} {key : κ} (hkey : key ∉ items.map name) :
    (items.foldl step map).get? key = map.get? key := by
  induction items generalizing map with
  | nil => rfl
  | cons first rest ih =>
    rw [List.map_cons, List.mem_cons, not_or] at hkey
    rw [List.foldl_cons, ih hkey.2, hstep, if_neg hkey.1]

/-- A loop which settles one key in each pass, from what the map says about it. -/
theorem get?_foldl_of_step (hstep : ∀ map item key, (step map item).get? key =
      if key = name item then next item (map.get? key) else map.get? key)
    (hnodup : (items.map name).Nodup) (map : OrderedMap κ ν) {item : ι} (hitem : item ∈ items) :
    (items.foldl step map).get? (name item) = next item (map.get? (name item)) := by
  induction items generalizing map with
  | nil => exact absurd hitem List.not_mem_nil
  | cons first rest ih =>
    rw [List.map_cons, List.nodup_cons] at hnodup
    rw [List.foldl_cons]
    by_cases hsame : item = first
    · rw [hsame, get?_foldl_of_notMem hstep hnodup.1, hstep, if_pos rfl]
    · have hrest := List.mem_of_ne_of_mem hsame hitem
      have hne : name item ≠ name first := fun heq ↦ hnodup.1 (heq ▸ List.mem_map_of_mem hrest)
      rw [ih hnodup.2 _ hrest, hstep, if_neg hne]

end Loop

/-- `{**map, **other}`. -/
def update (map other : OrderedMap κ ν) : OrderedMap κ ν :=
  other.entries.foldl (fun result entry ↦ result.insert entry.1 entry.2) map

theorem get?_update (map other : OrderedMap κ ν) (key : κ) :
    (map.update other).get? key = (other.get? key).or (map.get? key) := by
  cases hother : other.get? key with
  | none =>
    have hnot : key ∉ other.entries.map Prod.fst := get?_eq_none_iff.mp hother
    exact get?_foldl_insert_of_notMem hnot
  | some value =>
    have hmem := mem_entries_iff.mpr hother
    exact get?_foldl_insert_of_mem other.nodup hmem

/-- Where no key comes with two values, every pair is stored. -/
theorem get?_ofList_of_unique {pairs : List (κ × ν)}
    (hunique : ∀ key value value', (key, value) ∈ pairs → (key, value') ∈ pairs → value = value')
    {key : κ} {value : ν} : (ofList pairs).get? key = some value ↔ (key, value) ∈ pairs := by
  constructor
  · exact mem_ofList
  · intro h
    have hkey : key ∈ (ofList pairs).keys := mem_keys_ofList.mpr (List.mem_map.mpr ⟨_, h, rfl⟩)
    obtain ⟨stored, hstored⟩ := mem_keys_iff.mp hkey
    rw [hstored, hunique key stored value (mem_ofList hstored) h]

theorem mem_keys_foldl_insert {pairs : List (κ × ν)} {map : OrderedMap κ ν} {key : κ} :
    key ∈ (pairs.foldl (fun map pair ↦ map.insert pair.1 pair.2) map).keys ↔
      key ∈ map.keys ∨ key ∈ pairs.map Prod.fst := by
  induction pairs generalizing map with
  | nil => simp
  | cons pair rest ih =>
    rw [List.foldl_cons, ih, mem_keys_insert, List.map_cons, List.mem_cons, ← or_assoc]
    exact or_congr_left or_comm

end Lookup

/-! ## Grouping values under keys -/

section Grouping

variable [DecidableEq κ] {M : Type*}

/-- Store the values of a list of items under their keys, folding those which share a key. -/
def groupWith (combine : ν → ν → ν) (items : List (κ × ν)) : OrderedMap κ ν :=
  items.foldl (fun map item ↦ map.insertWith combine item.1 item.2) empty

/-- The weight stored under a key. -/
def weightAt [Zero M] (weight : ν → M) (map : OrderedMap κ ν) (key : κ) : M :=
  ((map.get? key).map weight).getD 0

@[simp] theorem groupWith_nil (combine : ν → ν → ν) :
    groupWith combine ([] : List (κ × ν)) = empty := rfl

@[simp] theorem groupWith_append_singleton (combine : ν → ν → ν) (items : List (κ × ν))
    (item : κ × ν) :
    groupWith combine (items ++ [item]) =
      (groupWith combine items).insertWith combine item.1 item.2 := by
  simp [groupWith, List.foldl_append]

theorem weightAt_insertWith [AddMonoid M] {combine : ν → ν → ν} {weight : ν → M}
    (hadd : ∀ a b, weight (combine a b) = weight a + weight b) (map : OrderedMap κ ν)
    (key other : κ) (value : ν) :
    weightAt weight (map.insertWith combine key value) other =
      weightAt weight map other + if key = other then weight value else 0 := by
  unfold insertWith weightAt
  cases hget : map.get? key with
  | none =>
    by_cases h : other = key
    · subst h
      simp [hget]
    · simp [h, Ne.symm h]
  | some old =>
    by_cases h : other = key
    · subst h
      simp [hget, hadd]
    · simp [h, Ne.symm h]

/-- Grouping adds up: an additive weight stored under a key is the sum over its items. -/
theorem weightAt_groupWith [AddMonoid M] {combine : ν → ν → ν} {weight : ν → M}
    (hadd : ∀ a b, weight (combine a b) = weight a + weight b) (items : List (κ × ν)) (key : κ) :
    weightAt weight (groupWith combine items) key =
      ((items.filter fun item ↦ item.1 = key).map fun item ↦ weight item.2).sum := by
  induction items using List.reverseRecOn with
  | nil => simp [weightAt]
  | append_singleton items item ih =>
    rw [groupWith_append_singleton, weightAt_insertWith hadd, ih, List.filter_append,
      List.map_append, List.sum_append]
    by_cases h : item.1 = key <;> simp [h]

/-- What holds of every item and is kept by folding holds of every stored value. -/
theorem forall_groupWith {P : κ → ν → Prop} {combine : ν → ν → ν} {items : List (κ × ν)}
    (hitem : ∀ item ∈ items, P item.1 item.2)
    (hfold : ∀ key a b, P key a → P key b → P key (combine a b)) :
    ∀ key value, (groupWith combine items).get? key = some value → P key value := by
  induction items using List.reverseRecOn with
  | nil => simp
  | append_singleton items item ih =>
    have hprev := ih fun other hmem ↦ hitem other (List.mem_append_left _ hmem)
    have hlast := hitem item (by simp)
    intro key value hget
    rw [groupWith_append_singleton, insertWith] at hget
    cases hold : (groupWith combine items).get? item.1 with
    | none =>
      simp only [hold, get?_insert] at hget
      split at hget
      · rename_i heq
        exact heq ▸ (Option.some.inj hget) ▸ hlast
      · exact hprev key value hget
    | some old =>
      simp only [hold, get?_insert] at hget
      split at hget
      · rename_i heq
        exact heq ▸ (Option.some.inj hget) ▸ hfold _ _ _ (hprev _ _ hold) hlast
      · exact hprev key value hget

/-- Lists stored under one key are concatenated in order. -/
theorem getD_groupWith_append {items : List (κ × List ν)} {key : κ} :
    ((groupWith (· ++ ·) items).get? key).getD [] =
      (items.filter fun item ↦ item.1 = key).flatMap Prod.snd := by
  induction items using List.reverseRecOn with
  | nil => rfl
  | append_singleton items item ih =>
    rw [groupWith_append_singleton, insertWith, List.filter_append, List.flatMap_append, ← ih]
    cases hold : (groupWith (· ++ ·) items).get? item.1 with
    | none =>
      by_cases h : item.1 = key
      · rw [h] at hold
        simp [h, hold]
      · simp [h, Ne.symm h]
    | some old =>
      by_cases h : item.1 = key
      · rw [h] at hold
        simp [h, hold]
      · simp [h, Ne.symm h]

/-- What the lists under a key hold comes from the items with that key. -/
theorem mem_groupWith_append {items : List (κ × List ν)} {key : κ} {value : ν} :
    (∃ values, (key, values) ∈ (groupWith (· ++ ·) items).entries ∧ value ∈ values) ↔
      ∃ item ∈ items, item.1 = key ∧ value ∈ item.2 := by
  have hmem : value ∈ ((groupWith (· ++ ·) items).get? key).getD [] ↔
      ∃ item ∈ items, item.1 = key ∧ value ∈ item.2 := by
    rw [getD_groupWith_append]
    simp [and_assoc]
  rw [← hmem]
  simp only [mem_entries_iff]
  cases (groupWith (· ++ ·) items).get? key <;> simp

theorem mem_keys_groupWith {combine : ν → ν → ν} {items : List (κ × ν)} {key : κ} :
    key ∈ (groupWith combine items).keys ↔ key ∈ items.map Prod.fst := by
  induction items using List.reverseRecOn with
  | nil => simp
  | append_singleton items item ih =>
    rw [groupWith_append_singleton, insertWith]
    split <;> simp [mem_keys_insert, ih, or_comm]

end Grouping

end OrderedMap

end IsvValidation.Library
