import IsvValidation.Config.Value
import IsvValidation.Library.Keyed

/-!
# Deep merging

`deep_merge` overlays one mapping on another and recurses where mappings meet. What the result holds
at a path is described for every path; the algebraic laws follow by comparing what merged mappings
store under each key, since a merge keeps the keys of its base in place and appends the new ones.
-/

namespace IsvValidation.Config

open Library

/-- What Python compares when a scalar is a key: `True`, `1` and `1.0` are the same key. -/
def Scalar.asKey : Scalar → Scalar
  | .bool value => .int (if value then 1 else 0)
  | .float value => if value.den = 1 then .int value.num else .float value
  | other => other

/-! ## The function -/

mutual

/-- The value which the result gets under a key where it holds `old` before. -/
def mergeValue (old : Option Value) : Value → Value
  | .dict items =>
    match old with
    | some (.dict base) => .dict (deepMerge base items)
    | _ => .dict items
  | value => value

/-- `deep_merge`. -/
def deepMerge (base : Items) : List (Scalar × Value) → Items
  | [] => base
  | (key, value) :: rest =>
    deepMerge
      (Keyed.put Scalar.asKey key (mergeValue (Keyed.find Scalar.asKey key base) value) base) rest

end

/-- Merging is an overlay in which mappings are merged and other values replaced. -/
theorem deepMerge_eq_overlay (base upper : Items) :
    deepMerge base upper = Keyed.overlay Scalar.asKey mergeValue base upper := by
  induction upper generalizing base with
  | nil => rfl
  | cons entry rest ih => rw [deepMerge, Keyed.overlay_cons, ih]

theorem mergeValue_of_not_isDict {value : Value} (h : value.isDict = false) (old : Option Value) :
    mergeValue old value = value := by
  cases value with
  | dict items => cases h
  | _ => rfl

theorem mergeValue_none (value : Value) : mergeValue none value = value := by
  cases value <;> rfl

theorem mergeValue_dict_of_not_isDict {old : Value} (h : old.isDict = false) (items : Items) :
    mergeValue (some old) (.dict items) = .dict items := by
  cases old with
  | dict base => cases h
  | _ => rfl

theorem exists_dict {value : Value} (h : value.isDict = true) : ∃ items, value = .dict items := by
  cases value with
  | dict items => exact ⟨items, rfl⟩
  | _ => cases h

/-! ## Mappings -/

mutual

/-- No mapping holds a key twice, at any depth of nested mappings. -/
def Value.DistinctKeys : Value → Prop
  | .dict items => (Keyed.codes Scalar.asKey items).Nodup ∧ Value.DistinctItems items
  | _ => True

def Value.DistinctItems : List (Scalar × Value) → Prop
  | [] => True
  | (_, value) :: rest => value.DistinctKeys ∧ Value.DistinctItems rest

end

theorem Value.distinctItems_iff {items : Items} :
    Value.DistinctItems items ↔ ∀ entry ∈ items, entry.2.DistinctKeys := by
  induction items with
  | nil => simp [Value.DistinctItems]
  | cons entry rest ih => simp [Value.DistinctItems, ih]

theorem Value.DistinctKeys.nodup {items : Items} (h : (Value.dict items).DistinctKeys) :
    (Keyed.codes Scalar.asKey items).Nodup := h.1

theorem Value.DistinctKeys.find {items : Items} {key : Scalar} {value : Value}
    (h : (Value.dict items).DistinctKeys) (hfind : Keyed.find Scalar.asKey key items = some value) :
    value.DistinctKeys := by
  obtain ⟨entry, hmem, _, rfl⟩ := Keyed.mem_of_find hfind
  exact Value.distinctItems_iff.mp h.2 entry hmem

/-- What the merged mapping stores under a key. -/
theorem find_deepMerge {base upper : Items} (h : (Value.dict upper).DistinctKeys) (key : Scalar) :
    Keyed.find Scalar.asKey key (deepMerge base upper) =
      Keyed.combine? mergeValue (Keyed.find Scalar.asKey key base)
        (Keyed.find Scalar.asKey key upper) := by
  rw [deepMerge_eq_overlay]
  exact Keyed.find_overlay h.nodup base key

/-- The keys of the merged mapping: those of the base, then the new ones. -/
theorem keys_deepMerge {base upper : Items} (h : (Value.dict upper).DistinctKeys) :
    (deepMerge base upper).map Prod.fst = base.map Prod.fst ++
      (upper.map Prod.fst).filter fun key ↦ key.asKey ∉ Keyed.codes Scalar.asKey base := by
  rw [deepMerge_eq_overlay]
  exact Keyed.keys_overlay h.nodup base

theorem sizeOf_find_lt {items : Items} {key : Scalar} {value : Value}
    (h : Keyed.find Scalar.asKey key items = some value) : sizeOf value < sizeOf items := by
  obtain ⟨entry, hmem, _, rfl⟩ := Keyed.mem_of_find h
  have hlt := List.sizeOf_lt_of_mem hmem
  have hentry : sizeOf entry.2 < sizeOf entry := by
    cases entry
    simp only [Prod.mk.sizeOf_spec]
    omega
  omega

/-- An entry of a mapping is stored under its key. -/
theorem distinctKeys_of_find {items : Items} (hnodup : (Keyed.codes Scalar.asKey items).Nodup)
    (h : ∀ key value, Keyed.find Scalar.asKey key items = some value → value.DistinctKeys) :
    (Value.dict items).DistinctKeys := by
  refine ⟨hnodup, Value.distinctItems_iff.mpr fun entry hentry ↦ ?_⟩
  exact h entry.1 entry.2 (Keyed.find_of_mem hnodup hentry)

/-- Merging mappings without repeated keys gives such a mapping. -/
theorem distinctKeys_deepMerge {base upper : Items} (hbase : (Value.dict base).DistinctKeys)
    (hupper : (Value.dict upper).DistinctKeys) :
    (Value.dict (deepMerge base upper)).DistinctKeys := by
  apply distinctKeys_of_find
  · rw [deepMerge_eq_overlay]
    exact Keyed.nodup_overlay hbase.nodup hupper.nodup
  · intro key value hfind
    rw [find_deepMerge hupper] at hfind
    cases hnew : Keyed.find Scalar.asKey key upper with
    | none =>
      rw [hnew] at hfind
      exact hbase.find hfind
    | some new =>
      rw [hnew] at hfind
      have hvalue : mergeValue (Keyed.find Scalar.asKey key base) new = value :=
        Option.some.inj hfind
      subst hvalue
      have hsize := sizeOf_find_lt hnew
      have hdistinct := hupper.find hnew
      cases new with
      | dict items =>
        unfold mergeValue
        split
        · rename_i old hold
          exact distinctKeys_deepMerge (hbase.find hold) hdistinct
        · exact hdistinct
      | _ => exact hdistinct
termination_by sizeOf upper
decreasing_by
  simp only [Value.dict.sizeOf_spec] at hsize
  omega

/-- A mapping as YAML and JSON hand it out: no key occurs twice. -/
structure Mapping where
  items : Items
  distinct : (Value.dict items).DistinctKeys

/-! ## Paths -/

/-- What a value holds at a path of keys. -/
def valueAt : List Scalar → Value → Option Value
  | [], value => some value
  | key :: path, .dict items =>
    match Keyed.find Scalar.asKey key items with
    | none => none
    | some value => valueAt path value
  | _ :: _, _ => none

theorem valueAt_cons {key : Scalar} {path : List Scalar} {items : Items} :
    valueAt (key :: path) (.dict items) =
      (Keyed.find Scalar.asKey key items).bind (valueAt path) := by
  rw [valueAt]
  cases Keyed.find Scalar.asKey key items <;> rfl

theorem valueAt_cons_of_not_isDict {value : Value} (h : value.isDict = false) (key : Scalar)
    (path : List Scalar) : valueAt (key :: path) value = none := by
  cases value with
  | dict items => cases h
  | _ => rfl

/-- A value which is found below a key is found in the mapping stored under it. -/
theorem exists_find_of_valueAt {key : Scalar} {path : List Scalar} {items : Items} {value : Value}
    (h : valueAt (key :: path) (.dict items) = some value) :
    ∃ stored, Keyed.find Scalar.asKey key items = some stored ∧ valueAt path stored = some value := by
  rw [valueAt_cons] at h
  exact Option.bind_eq_some_iff.mp h

namespace Mapping

@[ext] theorem ext_items {a b : Mapping} (h : a.items = b.items) : a = b := by
  cases a
  cases b
  congr

def empty : Mapping := ⟨[], List.nodup_nil, trivial⟩

/-- `deep_merge` of two mappings. -/
def merge (base upper : Mapping) : Mapping :=
  ⟨deepMerge base.items upper.items, distinctKeys_deepMerge base.distinct upper.distinct⟩

def find (mapping : Mapping) (key : Scalar) : Option Value :=
  Keyed.find Scalar.asKey key mapping.items

/-- What a mapping holds at a path. -/
def at? (mapping : Mapping) (path : List Scalar) : Option Value :=
  valueAt path (.dict mapping.items)

/-- No path is a mapping in one operand and another value in the other. -/
def Compatible (a b : Mapping) : Prop :=
  ∀ path u v, a.at? path = some u → b.at? path = some v → u.isDict = v.isDict

/-- What stands under a key below the root. -/
theorem at?_cons_of_find {mapping : Mapping} {key : Scalar} {value : Value}
    (h : mapping.find key = some value) (path : List Scalar) :
    mapping.at? (key :: path) = valueAt path value := by
  rw [at?, valueAt_cons]
  change (mapping.find key).bind _ = _
  rw [h]
  rfl

theorem at?_cons_of_find_none {mapping : Mapping} {key : Scalar} (h : mapping.find key = none)
    (path : List Scalar) : mapping.at? (key :: path) = none := by
  rw [at?, valueAt_cons]
  change (mapping.find key).bind _ = _
  rw [h]
  rfl

theorem find_merge (a b : Mapping) (key : Scalar) :
    (a.merge b).find key = Keyed.combine? mergeValue (a.find key) (b.find key) :=
  find_deepMerge b.distinct key

/-- The mapping stored under a key. -/
def child (mapping : Mapping) {key : Scalar} {items : Items}
    (h : mapping.find key = some (.dict items)) : Mapping :=
  ⟨items, mapping.distinct.find h⟩

/-- What the merged mapping stores under a key of the override. -/
theorem find_merge_of_some {a b : Mapping} {key : Scalar} {new : Value} (h : b.find key = some new) :
    (a.merge b).find key = some (mergeValue (a.find key) new) := by
  rw [find_merge, h]
  rfl

theorem find_merge_of_none {a b : Mapping} {key : Scalar} (h : b.find key = none) :
    (a.merge b).find key = a.find key := by
  rw [find_merge, h]
  rfl

/-- Where both sides hold mappings under a key, the result holds their merge. -/
theorem find_merge_of_dicts {a b : Mapping} {key : Scalar} {old new : Items}
    (hold : a.find key = some (.dict old)) (hnew : b.find key = some (.dict new)) :
    (a.merge b).find key = some (.dict ((a.child hold).merge (b.child hnew)).items) := by
  rw [find_merge_of_some hnew, hold]
  rfl

theorem find_merge_of_not_isDict {a b : Mapping} {key : Scalar} {new : Value}
    (hold : ∀ old, a.find key = some old → old.isDict = false) (hnew : b.find key = some new) :
    (a.merge b).find key = some new := by
  rw [find_merge_of_some hnew]
  cases hfind : a.find key with
  | none => rw [mergeValue_none]
  | some old =>
    cases new with
    | dict items => rw [mergeValue_dict_of_not_isDict (hold old hfind)]
    | _ => rfl

/-- A value of the override which is no mapping is held by the result. -/
theorem at?_merge_of_not_isDict (a b : Mapping) {path : List Scalar} {value : Value}
    (hb : b.at? path = some value) (hvalue : value.isDict = false) :
    (a.merge b).at? path = some value := by
  induction path generalizing a b with
  | nil =>
    rw [at?, valueAt, Option.some.injEq] at hb
    rw [← hb] at hvalue
    cases hvalue
  | cons key path ih =>
    obtain ⟨new, hnew, hpath⟩ := exists_find_of_valueAt hb
    by_cases hold : ∃ old, a.find key = some (.dict old)
    · obtain ⟨old, hold⟩ := hold
      cases hdict : new.isDict with
      | true =>
        cases new with
        | dict items =>
          rw [at?_cons_of_find (find_merge_of_dicts hold hnew)]
          exact ih (a.child hold) (b.child hnew) hpath
        | _ => cases hdict
      | false =>
        rw [at?_cons_of_find (find_merge_of_some hnew), mergeValue_of_not_isDict hdict]
        exact hpath
    · have hother : ∀ old, a.find key = some old → old.isDict = false := by
        intro old hfind
        cases old with
        | dict items => exact absurd ⟨items, hfind⟩ hold
        | _ => rfl
      rw [at?_cons_of_find (find_merge_of_not_isDict hother hnew)]
      exact hpath

/-- Where the override holds nothing, and no value other than a mapping on the way, the result holds
what the base holds. -/
theorem at?_merge_of_none (a b : Mapping) {path : List Scalar} (hb : b.at? path = none)
    (hway : ∀ q, q <+: path → ∀ value, b.at? q = some value → value.isDict = true) :
    (a.merge b).at? path = a.at? path := by
  induction path generalizing a b with
  | nil => cases hb
  | cons key path ih =>
    cases hnew : b.find key with
    | none =>
      rw [at?, at?, valueAt_cons, valueAt_cons]
      change ((a.merge b).find key).bind _ = (a.find key).bind _
      rw [find_merge_of_none hnew]
    | some new =>
      have hpath : valueAt path new = none := by
        rw [← at?_cons_of_find hnew]
        exact hb
      have hdict : new.isDict = true := by
        apply hway [key] ⟨path, rfl⟩ new
        rw [at?_cons_of_find hnew]
        rfl
      cases new with
      | dict items =>
        by_cases hold : ∃ old, a.find key = some (.dict old)
        · obtain ⟨old, hold⟩ := hold
          rw [at?_cons_of_find (find_merge_of_dicts hold hnew), at?_cons_of_find hold]
          apply ih (a.child hold) (b.child hnew) hpath
          intro q hq value hvalue
          apply hway (key :: q) (List.cons_prefix_cons.mpr ⟨rfl, hq⟩) value
          rw [at?_cons_of_find hnew]
          exact hvalue
        · have hother : ∀ old, a.find key = some old → old.isDict = false := by
            intro old hfind
            cases old with
            | dict items => exact absurd ⟨items, hfind⟩ hold
            | _ => rfl
          have hbase : a.at? (key :: path) = none := by
            cases hfind : a.find key with
            | none => exact at?_cons_of_find_none hfind path
            | some old =>
              rw [at?_cons_of_find hfind]
              cases path with
              | nil => cases hpath
              | cons next path => exact valueAt_cons_of_not_isDict (hother old hfind) next path
          rw [at?_cons_of_find (find_merge_of_not_isDict hother hnew), hpath, hbase]
      | _ => cases hdict

/-- Where both hold mappings, the result holds their merge. -/
theorem at?_merge_of_dicts (a b : Mapping) {path : List Scalar} {m n : Items}
    (ha : a.at? path = some (.dict m)) (hb : b.at? path = some (.dict n)) :
    (a.merge b).at? path = some (.dict (deepMerge m n)) ∧ (Value.dict n).DistinctKeys := by
  induction path generalizing a b with
  | nil =>
    rw [at?, valueAt, Option.some.injEq, Value.dict.injEq] at ha hb
    subst ha hb
    exact ⟨rfl, b.distinct⟩
  | cons key path ih =>
    obtain ⟨old, hold, hatold⟩ := exists_find_of_valueAt ha
    obtain ⟨new, hnew, hatnew⟩ := exists_find_of_valueAt hb
    have hdict {value : Value} {items : Items} (h : valueAt path value = some (.dict items)) :
        ∃ inner, value = .dict inner := by
      cases value with
      | dict inner => exact ⟨inner, rfl⟩
      | _ =>
        cases path with
        | nil => cases h
        | cons next path => cases h
    obtain ⟨olds, rfl⟩ := hdict hatold
    obtain ⟨news, rfl⟩ := hdict hatnew
    rw [at?_cons_of_find (find_merge_of_dicts hold hnew)]
    exact ih (a.child hold) (b.child hnew) hatold hatnew

/-! ## Algebraic laws -/

def keys (mapping : Mapping) : List Scalar := mapping.items.map Prod.fst

theorem ext_find {a b : Mapping} (hkeys : a.keys = b.keys) (hfind : ∀ key, a.find key = b.find key) :
    a = b := by
  apply ext_items
  exact Keyed.ext_find a.distinct.nodup hkeys hfind

theorem keys_merge (a b : Mapping) :
    (a.merge b).keys = a.keys ++ b.keys.filter fun key ↦ (a.find key).isNone := by
  rw [keys, merge, keys_deepMerge b.distinct]
  congr 1
  apply List.filter_congr
  intro key _
  cases hfind : a.find key with
  | none =>
    have hnot := Keyed.find_eq_none_iff.mp hfind
    simp [hnot]
  | some value =>
    have hmem := Keyed.find_isSome_iff.mp (Option.isSome_iff_exists.mpr ⟨value, hfind⟩)
    simp [hmem]

theorem find_isSome_of_mem_keys {mapping : Mapping} {key : Scalar} (h : key ∈ mapping.keys) :
    (mapping.find key).isSome := by
  apply Keyed.find_isSome_iff.mpr
  rw [Keyed.codes_eq_map_keys]
  exact List.mem_map_of_mem h

theorem isNone_find_merge (a b : Mapping) (key : Scalar) :
    ((a.merge b).find key).isNone = ((a.find key).isNone && (b.find key).isNone) := by
  rw [find_merge]
  cases b.find key with
  | none => simp [Keyed.combine?]
  | some new => simp [Keyed.combine?]

@[simp] theorem merge_empty (a : Mapping) : a.merge empty = a := rfl

@[simp] theorem empty_merge (b : Mapping) : empty.merge b = b := by
  apply ext_find
  · rw [keys_merge]
    exact List.filter_eq_self.mpr fun _ _ ↦ rfl
  · intro key
    rw [find_merge]
    cases b.find key with
    | none => rfl
    | some new => exact congrArg some (mergeValue_none new)

theorem find_child_lt {mapping : Mapping} {key : Scalar} {items : Items}
    (h : mapping.find key = some (.dict items)) :
    sizeOf (mapping.child h).items < sizeOf mapping.items := by
  have hlt := sizeOf_find_lt h
  simp only [Value.dict.sizeOf_spec] at hlt
  change sizeOf items < sizeOf mapping.items
  omega

/-- Merging an override a second time changes nothing. -/
theorem merge_merge_self (a b : Mapping) : (a.merge b).merge b = a.merge b := by
  apply ext_find
  · have hnone : b.keys.filter (fun key ↦ ((a.merge b).find key).isNone) = [] := by
      rw [List.filter_eq_nil_iff]
      intro key hkey
      rw [isNone_find_merge]
      have hsome := find_isSome_of_mem_keys hkey
      cases hfind : b.find key with
      | none =>
        rw [hfind] at hsome
        cases hsome
      | some value => simp
    rw [keys_merge (a.merge b) b, hnone, List.append_nil]
  · intro key
    cases hnew : b.find key with
    | none => rw [find_merge_of_none hnew]
    | some new =>
      cases hdict : new.isDict with
      | false =>
        rw [find_merge_of_some hnew, find_merge_of_some hnew, mergeValue_of_not_isDict hdict,
          mergeValue_of_not_isDict hdict]
      | true =>
        cases new with
        | dict items =>
          by_cases hold : ∃ old, a.find key = some (.dict old)
          · obtain ⟨old, hold⟩ := hold
            have hmerged := find_merge_of_dicts hold hnew
            rw [find_merge_of_dicts hmerged hnew, hmerged]
            have hchild : (a.merge b).child hmerged = (a.child hold).merge (b.child hnew) := rfl
            have hlt := find_child_lt hnew
            rw [hchild, merge_merge_self (a.child hold) (b.child hnew)]
          · have hother : ∀ old, a.find key = some old → old.isDict = false := by
              intro old hfind
              cases old with
              | dict items => exact absurd ⟨items, hfind⟩ hold
              | _ => rfl
            have hmerged := find_merge_of_not_isDict hother hnew
            rw [find_merge_of_dicts hmerged hnew, hmerged]
            have hchild : (a.merge b).child hmerged = empty.merge (b.child hnew) := by
              rw [empty_merge]
              rfl
            have hlt := find_child_lt hnew
            rw [hchild, merge_merge_self empty (b.child hnew), empty_merge]
            rfl
        | _ => cases hdict
termination_by sizeOf b.items

/-- Below a key under which both hold mappings, compatible mappings are compatible. -/
theorem Compatible.child {a b : Mapping} (h : Compatible a b) {key : Scalar} {m n : Items}
    (ha : a.find key = some (.dict m)) (hb : b.find key = some (.dict n)) :
    Compatible (a.child ha) (b.child hb) := by
  intro path u v hu hv
  apply h (key :: path) u v
  · rw [at?_cons_of_find ha]
    exact hu
  · rw [at?_cons_of_find hb]
    exact hv

theorem Compatible.find {a b : Mapping} (h : Compatible a b) {key : Scalar} {u v : Value}
    (ha : a.find key = some u) (hb : b.find key = some v) : u.isDict = v.isDict := by
  apply h [key] u v
  · rw [at?_cons_of_find ha]
    rfl
  · rw [at?_cons_of_find hb]
    rfl

theorem Compatible.symm {a b : Mapping} (h : Compatible a b) : Compatible b a :=
  fun path u v hu hv ↦ (h path v u hv hu).symm

/-- Compatible mappings can be merged in any grouping. -/
theorem merge_assoc {a b c : Mapping} (hab : Compatible a b) (hac : Compatible a c)
    (hbc : Compatible b c) : (a.merge b).merge c = a.merge (b.merge c) := by
  apply ext_find
  · rw [keys_merge (a.merge b), keys_merge a b, keys_merge a (b.merge c), keys_merge b c,
      List.filter_append, List.filter_filter, List.append_assoc]
    congr 2
    apply List.filter_congr
    intro key _
    rw [isNone_find_merge, Bool.and_comm]
  · intro key
    cases hc : c.find key with
    | none =>
      rw [find_merge_of_none hc, find_merge, find_merge, find_merge_of_none hc]
    | some w =>
      cases hb : b.find key with
      | none =>
        have hinner : (b.merge c).find key = some w := by
          rw [find_merge_of_some hc, hb, mergeValue_none]
        rw [find_merge_of_some hc, find_merge_of_none hb, find_merge_of_some hinner]
      | some v =>
        cases ha : a.find key with
        | none =>
          have hinner := find_merge_of_some (a := b) hc
          rw [find_merge_of_some hc, find_merge_of_some hb, find_merge_of_some hinner, ha, hb,
            mergeValue_none, mergeValue_none]
        | some u =>
          have huv := hab.find ha hb
          have hvw := hbc.find hb hc
          cases hdict : w.isDict with
          | false =>
            have hinner : (b.merge c).find key = some w := by
              rw [find_merge_of_some hc, mergeValue_of_not_isDict hdict]
            rw [find_merge_of_some hc, find_merge_of_some hinner, mergeValue_of_not_isDict hdict,
              mergeValue_of_not_isDict hdict]
          | true =>
            obtain ⟨cs, rfl⟩ := exists_dict hdict
            obtain ⟨bs, rfl⟩ := exists_dict (hvw.trans hdict)
            obtain ⟨as, rfl⟩ := exists_dict (huv.trans (hvw.trans hdict))
            have hleft := find_merge_of_dicts ha hb
            have hright := find_merge_of_dicts hb hc
            have hlt := find_child_lt hc
            have ih := merge_assoc (hab.child ha hb) (hac.child ha hc) (hbc.child hb hc)
            rw [find_merge_of_dicts hleft hc, find_merge_of_dicts ha hright]
            exact congrArg (fun m : Mapping ↦ some (Value.dict m.items)) ih
termination_by sizeOf c.items

/-- What the result holds at a path has the shape of what an operand holds there. -/
theorem exists_of_at?_merge (a b : Mapping) {path : List Scalar} {u : Value}
    (h : (a.merge b).at? path = some u) :
    ∃ v, (a.at? path = some v ∨ b.at? path = some v) ∧ v.isDict = u.isDict := by
  induction path generalizing a b with
  | nil =>
    rw [at?, valueAt, Option.some.injEq] at h
    rw [← h]
    exact ⟨_, Or.inl rfl, rfl⟩
  | cons key path ih =>
    cases hnew : b.find key with
    | none =>
      refine ⟨u, Or.inl ?_, rfl⟩
      rw [at?, valueAt_cons] at h ⊢
      change ((a.merge b).find key).bind _ = _ at h
      rw [find_merge_of_none hnew] at h
      exact h
    | some new =>
      by_cases hdicts : ∃ old items, a.find key = some (.dict old) ∧ new = .dict items
      · obtain ⟨old, items, hold, rfl⟩ := hdicts
        rw [at?_cons_of_find (find_merge_of_dicts hold hnew)] at h
        rw [at?_cons_of_find hold, at?_cons_of_find hnew]
        exact ih (a.child hold) (b.child hnew) h
      · have hmerged : mergeValue (a.find key) new = new := by
          cases hdict : new.isDict with
          | false => exact mergeValue_of_not_isDict hdict _
          | true =>
            obtain ⟨items, rfl⟩ := exists_dict hdict
            cases hold : a.find key with
            | none => exact mergeValue_none _
            | some old =>
              cases hother : old.isDict with
              | false => exact mergeValue_dict_of_not_isDict hother items
              | true =>
                obtain ⟨olds, rfl⟩ := exists_dict hother
                exact absurd ⟨olds, items, hold, rfl⟩ hdicts
        refine ⟨u, Or.inr ?_, rfl⟩
        rw [at?_cons_of_find (find_merge_of_some hnew), hmerged] at h
        rw [at?_cons_of_find hnew]
        exact h

theorem Compatible.merge {a b c : Mapping} (hac : Compatible a c) (hbc : Compatible b c) :
    Compatible (a.merge b) c := by
  intro path u v hu hv
  obtain ⟨w, hw | hw, hshape⟩ := exists_of_at?_merge a b hu
  · rw [← hshape]
    exact hac path w v hw hv
  · rw [← hshape]
    exact hbc path w v hw hv

theorem Compatible.empty_left (c : Mapping) : Compatible empty c := by
  intro path u v hu hv
  cases path with
  | nil =>
    rw [at?, valueAt, Option.some.injEq] at hu hv
    rw [← hu, ← hv]
    rfl
  | cons key path =>
    have hnone : empty.at? (key :: path) = none := at?_cons_of_find_none rfl path
    rw [hnone] at hu
    cases hu

/-- A list of mappings merged one after the other, the first as the base. -/
def mergeAll (mappings : List Mapping) : Mapping := mappings.foldl merge empty

theorem mergeAll_concat (mappings : List Mapping) (last : Mapping) :
    mergeAll (mappings ++ [last]) = (mergeAll mappings).merge last := by
  rw [mergeAll, List.foldl_append]
  rfl

theorem Compatible.mergeAll_left {mappings : List Mapping} {c : Mapping}
    (h : ∀ a ∈ mappings, Compatible a c) : Compatible (mergeAll mappings) c := by
  induction mappings using List.reverseRecOn with
  | nil => exact Compatible.empty_left c
  | append_singleton mappings last ih =>
    rw [mergeAll_concat]
    apply Compatible.merge
    · exact ih fun a ha ↦ h a (List.mem_append_left _ ha)
    · exact h last (List.mem_append_right _ (List.mem_singleton_self last))

/-- A list of compatible mappings can be cut anywhere and its parts merged first. -/
theorem mergeAll_append {xs ys : List Mapping} (h : (xs ++ ys).Pairwise Compatible) :
    mergeAll (xs ++ ys) = (mergeAll xs).merge (mergeAll ys) := by
  induction ys using List.reverseRecOn with
  | nil => rw [List.append_nil]; rfl
  | append_singleton ys last ih =>
    rw [← List.append_assoc] at h
    have hparts := List.pairwise_append.mp h
    have hacross := List.pairwise_append.mp hparts.1
    have hlast : ∀ a ∈ xs ++ ys, Compatible a last := fun a ha ↦
      hparts.2.2 a ha last (List.mem_singleton_self last)
    have hxs : Compatible (mergeAll xs) last :=
      Compatible.mergeAll_left fun a ha ↦ hlast a (List.mem_append_left ys ha)
    have hys : Compatible (mergeAll ys) last :=
      Compatible.mergeAll_left fun a ha ↦ hlast a (List.mem_append_right xs ha)
    have hboth : Compatible (mergeAll xs) (mergeAll ys) := by
      apply Compatible.mergeAll_left
      intro a ha
      apply Compatible.symm
      apply Compatible.mergeAll_left
      intro b hb
      exact (hacross.2.2 a ha b hb).symm
    calc
      mergeAll (xs ++ (ys ++ [last])) = (mergeAll (xs ++ ys)).merge last := by
        rw [← List.append_assoc, mergeAll_concat]
      _ = ((mergeAll xs).merge (mergeAll ys)).merge last := by rw [ih hparts.1]
      _ = (mergeAll xs).merge ((mergeAll ys).merge last) := merge_assoc hboth hxs hys
      _ = (mergeAll xs).merge (mergeAll (ys ++ [last])) := by rw [mergeAll_concat]

/-- What a merge of mappings has to do: values of the override win at every path unless mappings
meet, what the override does not mention is kept, and keys are united; merging nothing, merging into
nothing and merging twice are neutral, and compatible mappings can be grouped in any way. -/
structure OverrideSemantics (merge : Mapping → Mapping → Mapping) : Prop where
  overridden : ∀ a b path value, b.at? path = some value → value.isDict = false →
    (merge a b).at? path = some value
  kept : ∀ a b path, b.at? path = none →
    (∀ q, q <+: path → ∀ value, b.at? q = some value → value.isDict = true) →
      (merge a b).at? path = a.at? path
  united : ∀ a b path m n, a.at? path = some (.dict m) → b.at? path = some (.dict n) →
    ∃ r, (merge a b).at? path = some (.dict r) ∧
      ∀ c, c ∈ Keyed.codes Scalar.asKey r ↔
        c ∈ Keyed.codes Scalar.asKey m ∨ c ∈ Keyed.codes Scalar.asKey n
  right_empty : ∀ a, merge a empty = a
  left_empty : ∀ b, merge empty b = b
  idempotent : ∀ a b, merge (merge a b) b = merge a b
  assoc : ∀ a b c, Compatible a b → Compatible a c → Compatible b c →
    merge (merge a b) c = merge a (merge b c)
  grouped : ∀ xs ys : List Mapping, (xs ++ ys).Pairwise Compatible →
    (xs ++ ys).foldl merge empty = merge (xs.foldl merge empty) (ys.foldl merge empty)

theorem deepMerge_overrides : OverrideSemantics merge where
  overridden := fun a b _ _ ↦ at?_merge_of_not_isDict a b
  kept := fun a b _ ↦ at?_merge_of_none a b
  united := by
    intro a b path m n ha hb
    obtain ⟨hmerged, hdistinct⟩ := at?_merge_of_dicts a b ha hb
    refine ⟨deepMerge m n, hmerged, fun c ↦ ?_⟩
    rw [deepMerge_eq_overlay]
    exact Keyed.mem_codes_overlay hdistinct.nodup m c
  right_empty := merge_empty
  left_empty := empty_merge
  idempotent := merge_merge_self
  assoc := fun _ _ _ ↦ merge_assoc
  grouped := fun _ _ ↦ mergeAll_append

end Mapping

end IsvValidation.Config
