import Mathlib.Data.List.Nodup

/-!
# Entries under keys with a code

The entries of a mapping in order, where two keys are the same key when their codes agree. Putting
a value under a key which is present keeps the stored key and its position. An overlay puts the
entries of one mapping into another and combines what meets under a key; what it stores and in which
order is described once, and mappings with the same keys are compared by what they store.
-/

namespace IsvValidation.Library.Keyed

variable {κ ι ν : Type*}

def codes (code : κ → ι) (entries : List (κ × ν)) : List ι := entries.map fun entry ↦ code entry.1

@[simp] theorem codes_nil (code : κ → ι) : codes code ([] : List (κ × ν)) = [] := rfl

@[simp] theorem codes_cons (code : κ → ι) (entry : κ × ν) (entries : List (κ × ν)) :
    codes code (entry :: entries) = code entry.1 :: codes code entries := rfl

theorem codes_eq_map_keys {code : κ → ι} (entries : List (κ × ν)) :
    codes code entries = (entries.map Prod.fst).map code := by
  rw [List.map_map]
  rfl

variable [DecidableEq ι] (code : κ → ι)

/-- The value stored under a key. -/
def find (key : κ) : List (κ × ν) → Option ν
  | [] => none
  | (other, value) :: rest => if code other = code key then some value else find key rest

/-- Replace the value under a key, or append a new entry. -/
def put (key : κ) (value : ν) : List (κ × ν) → List (κ × ν)
  | [] => [(key, value)]
  | (other, old) :: rest =>
    if code other = code key then (other, value) :: rest else (other, old) :: put key value rest

variable {code}

@[simp] theorem find_nil (key : κ) : find code key ([] : List (κ × ν)) = none := rfl

theorem find_cons_self (entry : κ × ν) (entries : List (κ × ν)) :
    find code entry.1 (entry :: entries) = some entry.2 :=
  if_pos rfl

theorem find_cons_of_ne {key : κ} {entry : κ × ν} (h : code entry.1 ≠ code key)
    (entries : List (κ × ν)) : find code key (entry :: entries) = find code key entries :=
  if_neg h

theorem find_congr {key other : κ} (h : code key = code other) (entries : List (κ × ν)) :
    find code key entries = find code other entries := by
  induction entries with
  | nil => rfl
  | cons entry rest ih => rw [find, find, ih, h]

theorem find_isSome_iff {key : κ} {entries : List (κ × ν)} :
    (find code key entries).isSome ↔ code key ∈ codes code entries := by
  induction entries with
  | nil => simp
  | cons entry rest ih =>
    rw [codes_cons, List.mem_cons]
    by_cases h : code entry.1 = code key
    · rw [find, if_pos h]
      simp [h]
    · rw [find_cons_of_ne h, ih]
      exact ⟨Or.inr, fun hmem ↦ hmem.resolve_left fun heq ↦ h heq.symm⟩

theorem find_eq_none_iff {key : κ} {entries : List (κ × ν)} :
    find code key entries = none ↔ code key ∉ codes code entries := by
  rw [← find_isSome_iff, Option.isSome_iff_ne_none, not_not]

theorem mem_of_find {key : κ} {value : ν} {entries : List (κ × ν)}
    (h : find code key entries = some value) :
    ∃ entry ∈ entries, code entry.1 = code key ∧ entry.2 = value := by
  induction entries with
  | nil => cases h
  | cons entry rest ih =>
    by_cases hkey : code entry.1 = code key
    · rw [find, if_pos hkey] at h
      exact ⟨entry, List.mem_cons_self .., hkey, Option.some.inj h⟩
    · rw [find_cons_of_ne hkey] at h
      obtain ⟨found, hfound, hrest⟩ := ih h
      exact ⟨found, List.mem_cons_of_mem entry hfound, hrest⟩

theorem find_of_mem {entry : κ × ν} {entries : List (κ × ν)} (hnodup : (codes code entries).Nodup)
    (hmem : entry ∈ entries) : find code entry.1 entries = some entry.2 := by
  induction entries with
  | nil => exact absurd hmem List.not_mem_nil
  | cons first rest ih =>
    rw [codes_cons, List.nodup_cons] at hnodup
    rcases List.mem_cons.mp hmem with rfl | hrest
    · exact find_cons_self entry rest
    · have hne : code first.1 ≠ code entry.1 := by
        intro heq
        apply hnodup.1
        rw [heq]
        exact List.mem_map_of_mem hrest
      rw [find_cons_of_ne hne]
      exact ih hnodup.2 hrest

theorem find_put (key other : κ) (value : ν) (entries : List (κ × ν)) :
    find code other (put code key value entries) =
      if code key = code other then some value else find code other entries := by
  induction entries with
  | nil => rfl
  | cons entry rest ih =>
    by_cases h : code entry.1 = code key
    · rw [put, if_pos h, find, find, h]
      split <;> rfl
    · rw [put, if_neg h, find, ih, find]
      by_cases hother : code entry.1 = code other
      · have hne : ¬code key = code other := fun heq ↦ h (hother.trans heq.symm)
        rw [if_pos hother, if_neg hne, if_pos hother]
      · rw [if_neg hother, if_neg hother]

theorem keys_put (key : κ) (value : ν) (entries : List (κ × ν)) :
    (put code key value entries).map Prod.fst =
      if code key ∈ codes code entries then entries.map Prod.fst
      else entries.map Prod.fst ++ [key] := by
  induction entries with
  | nil => rfl
  | cons entry rest ih =>
    by_cases h : code entry.1 = code key
    · rw [put, if_pos h, codes_cons, h, if_pos (List.mem_cons_self ..)]
      rfl
    · have hne : ¬code key = code entry.1 := fun heq ↦ h heq.symm
      rw [put, if_neg h, List.map_cons, ih]
      simp only [codes_cons, List.mem_cons, hne, false_or]
      split <;> rfl

/-- Mappings with the same keys are equal when they store the same. -/
theorem ext_find {entries others : List (κ × ν)} (hnodup : (codes code entries).Nodup)
    (hkeys : entries.map Prod.fst = others.map Prod.fst)
    (hfind : ∀ key, find code key entries = find code key others) : entries = others := by
  have hnodup' : (codes code others).Nodup := by
    rw [codes_eq_map_keys, ← hkeys, ← codes_eq_map_keys]
    exact hnodup
  apply List.ext_getElem
  · have hlength := congrArg List.length hkeys
    rwa [List.length_map, List.length_map] at hlength
  · intro i hi hi'
    have hkey : entries[i].1 = others[i].1 := by
      have hget := congrArg (·[i]?) hkeys
      simpa [hi, hi'] using hget
    have hvalue : some entries[i].2 = some others[i].2 :=
      calc
        some entries[i].2 = find code entries[i].1 entries :=
          (find_of_mem hnodup (List.getElem_mem hi)).symm
        _ = find code others[i].1 others := by rw [hfind, hkey]
        _ = some others[i].2 := find_of_mem hnodup' (List.getElem_mem hi')
    exact Prod.ext hkey (Option.some.inj hvalue)

/-! ## Overlays -/

section Overlay

variable (code) (combine : Option ν → ν → ν)

/-- Put every entry into a mapping, combined with what is stored under its key. -/
def overlay (base upper : List (κ × ν)) : List (κ × ν) :=
  upper.foldl (fun result entry ↦ put code entry.1 (combine (find code entry.1 result) entry.2) result)
    base

/-- What an overlay stores under a key which holds `old` below and `new` above. -/
def combine? (old : Option ν) : Option ν → Option ν
  | none => old
  | some new => some (combine old new)

variable {code combine}

@[simp] theorem overlay_nil (base : List (κ × ν)) : overlay code combine base [] = base := rfl

theorem overlay_cons (base : List (κ × ν)) (entry : κ × ν) (rest : List (κ × ν)) :
    overlay code combine base (entry :: rest) =
      overlay code combine (put code entry.1 (combine (find code entry.1 base) entry.2) base) rest :=
  rfl

theorem find_overlay {upper : List (κ × ν)} (hnodup : (codes code upper).Nodup)
    (base : List (κ × ν)) (key : κ) :
    find code key (overlay code combine base upper) =
      combine? combine (find code key base) (find code key upper) := by
  induction upper generalizing base with
  | nil => rfl
  | cons entry rest ih =>
    rw [codes_cons, List.nodup_cons] at hnodup
    rw [overlay_cons, ih hnodup.2, find_put]
    by_cases h : code entry.1 = code key
    · have hrest : find code key rest = none := by
        rw [find_eq_none_iff, ← h]
        exact hnodup.1
      rw [if_pos h, hrest, find, if_pos h, find_congr h base]
      rfl
    · rw [if_neg h, find_cons_of_ne h]

theorem keys_overlay {upper : List (κ × ν)} (hnodup : (codes code upper).Nodup)
    (base : List (κ × ν)) :
    (overlay code combine base upper).map Prod.fst =
      base.map Prod.fst ++ (upper.map Prod.fst).filter fun key ↦ code key ∉ codes code base := by
  induction upper generalizing base with
  | nil => simp
  | cons entry rest ih =>
    rw [codes_cons, List.nodup_cons] at hnodup
    have hcodes : codes code (put code entry.1 (combine (find code entry.1 base) entry.2) base) =
        ((put code entry.1 (combine (find code entry.1 base) entry.2) base).map Prod.fst).map code :=
      codes_eq_map_keys _
    rw [overlay_cons, ih hnodup.2, hcodes, keys_put, List.map_cons, List.filter_cons]
    by_cases hmem : code entry.1 ∈ codes code base
    · simp only [hmem, if_true, not_true_eq_false, decide_false, Bool.false_eq_true, if_false,
        ← codes_eq_map_keys]
    · simp only [hmem, if_false, not_false_eq_true, decide_true, if_true, List.append_assoc,
        List.singleton_append, List.map_append, ← codes_eq_map_keys, List.map_cons, List.map_nil]
      congr 2
      apply List.filter_congr
      intro key hkey
      have hne : code key ≠ code entry.1 := by
        intro heq
        apply hnodup.1
        rw [← heq, codes_eq_map_keys]
        exact List.mem_map_of_mem hkey
      simp [hne]

theorem mem_codes_overlay {upper : List (κ × ν)} (hnodup : (codes code upper).Nodup)
    (base : List (κ × ν)) (c : ι) :
    c ∈ codes code (overlay code combine base upper) ↔
      c ∈ codes code base ∨ c ∈ codes code upper := by
  rw [codes_eq_map_keys, keys_overlay hnodup, List.map_append, List.mem_append,
    ← codes_eq_map_keys, codes_eq_map_keys upper]
  simp only [List.mem_map, List.mem_filter, decide_eq_true_eq]
  constructor
  · rintro (h | ⟨key, ⟨hkey, _⟩, rfl⟩)
    · exact Or.inl h
    · exact Or.inr ⟨key, hkey, rfl⟩
  · rintro (h | ⟨key, hkey, rfl⟩)
    · exact Or.inl h
    · by_cases hmem : code key ∈ codes code base
      · exact Or.inl hmem
      · exact Or.inr ⟨key, ⟨hkey, hmem⟩, rfl⟩

theorem nodup_overlay {base upper : List (κ × ν)} (hbase : (codes code base).Nodup)
    (hupper : (codes code upper).Nodup) : (codes code (overlay code combine base upper)).Nodup := by
  rw [codes_eq_map_keys, keys_overlay hupper, List.map_append, ← codes_eq_map_keys,
    List.nodup_append]
  refine ⟨hbase, ?_, ?_⟩
  · rw [codes_eq_map_keys] at hupper
    exact hupper.sublist (List.Sublist.map code List.filter_sublist)
  · intro a ha b hb heq
    obtain ⟨key, hkey, rfl⟩ := List.mem_map.mp hb
    have hnot := (List.mem_filter.mp hkey).2
    rw [decide_eq_true_eq, ← heq] at hnot
    exact hnot ha

end Overlay

end IsvValidation.Library.Keyed
