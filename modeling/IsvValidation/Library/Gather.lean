import Mathlib.Data.List.ReduceOption
import Mathlib.Data.Finset.Lattice.Lemmas
import Mathlib.Data.Finset.Sort
import IsvValidation.Library.OrderedMap

/-!
# Gathered members

A map from keys to sets gathers the members which a list of items declares for their keys. Where some keys have
another one over them, what is declared for them counts for that one as well. A list of entries which may not share
a key is made of items in turn, and ends where one has a key which is there.
-/

namespace IsvValidation.Library

/-- The members of a set in order. -/
def sortedMembers {α : Type*} [LinearOrder α] (members : Finset α) : List α := members.sort

@[simp] theorem mem_sortedMembers {α : Type*} [LinearOrder α] {members : Finset α} {a : α} :
    a ∈ sortedMembers members ↔ a ∈ members := Finset.mem_sort _

/-- Items are added in turn exactly if no two entries have the same key. -/
theorem foldlM_distinct {ε κ ν β : Type*} [DecidableEq κ] (place : β → κ × ν) (refuse : β → ε)
    {map result : List (κ × ν)} {items : List β} (hmap : (map.map Prod.fst).Nodup) :
    items.foldlM (fun map item ↦ if (place item).1 ∈ map.map Prod.fst then .error (refuse item)
        else .ok (map ++ [place item])) map = (.ok result : Except ε (List (κ × ν))) ↔
      result = map ++ items.map place ∧ (result.map Prod.fst).Nodup := by
  induction items generalizing map with
  | nil =>
    rw [List.foldlM_nil, List.map_nil, List.append_nil]
    constructor
    · intro h
      cases h
      exact ⟨rfl, hmap⟩
    · rintro ⟨rfl, -⟩
      rfl
  | cons item rest ih =>
    rw [List.foldlM_cons]
    by_cases hmem : (place item).1 ∈ map.map Prod.fst
    · rw [if_pos hmem]
      refine iff_of_false (fun hok ↦ ?_) ?_
      · cases hok
      · rintro ⟨rfl, hnodup⟩
        rw [List.map_append, List.map_cons, List.map_cons] at hnodup
        exact List.disjoint_of_nodup_append hnodup hmem List.mem_cons_self
    · rw [if_neg hmem]
      have hnext : ((map ++ [place item]).map Prod.fst).Nodup := by
        rw [List.map_append, List.nodup_append']
        refine ⟨hmap, List.nodup_singleton _, ?_⟩
        rw [List.map_singleton, List.disjoint_singleton]
        exact hmem
      have hstep := ih hnext
      rw [List.append_assoc, List.singleton_append, ← List.map_cons] at hstep
      exact hstep

namespace OrderedMap

variable {κ α : Type*} [DecidableEq κ] {map : OrderedMap κ (Finset α)} {key : κ} {a : α}

/-- The members stored under a key; there are none under a key which is absent. -/
def membersAt (map : OrderedMap κ (Finset α)) (key : κ) : Finset α := (map.get? key).getD ∅

@[simp] theorem membersAt_empty : (empty : OrderedMap κ (Finset α)).membersAt key = ∅ := rfl

/-- An entry holds the members which are stored under its key. -/
theorem exists_mem_entries_iff {P : κ → Prop} :
    (∃ entry ∈ map.entries, P entry.1 ∧ a ∈ entry.2) ↔ ∃ key, P key ∧ a ∈ map.membersAt key := by
  constructor
  · rintro ⟨⟨key, members⟩, hmem, hkey, ha⟩
    rw [mem_entries_iff] at hmem
    exact ⟨key, hkey, by rw [membersAt, hmem]; exact ha⟩
  · rintro ⟨key, hkey, ha⟩
    cases hget : map.get? key with
    | none =>
      rw [membersAt, hget] at ha
      simp at ha
    | some members =>
      rw [membersAt, hget] at ha
      exact ⟨(key, members), mem_entries_iff.mpr hget, hkey, ha⟩

variable [DecidableEq α]

def addMembers (map : OrderedMap κ (Finset α)) (key : κ) (members : Finset α) : OrderedMap κ (Finset α) :=
  map.insertWith (· ∪ ·) key members

/-- Add the members of each item in turn. -/
def gather (map : OrderedMap κ (Finset α)) (items : List (κ × Finset α)) : OrderedMap κ (Finset α) :=
  items.foldl (fun map item ↦ map.addMembers item.1 item.2) map

/-- Add the members of each entry to the key over its own. -/
def spread (parent : κ → Option κ) (map : OrderedMap κ (Finset α)) : OrderedMap κ (Finset α) :=
  map.gather (map.entries.filterMap fun entry ↦ (parent entry.1).map fun above ↦ (above, entry.2))

variable {items : List (κ × Finset α)}

theorem membersAt_addMembers (map : OrderedMap κ (Finset α)) (key other : κ) (members : Finset α) :
    (map.addMembers key members).membersAt other =
      if other = key then map.membersAt other ∪ members else map.membersAt other := by
  unfold addMembers insertWith membersAt
  cases hget : map.get? key with
  | none =>
    rw [get?_insert]
    split_ifs with heq
    · rw [heq, hget, Option.getD_none, Option.getD_some, Finset.empty_union]
    · rfl
  | some old =>
    rw [get?_insert]
    split_ifs with heq
    · rw [heq, hget, Option.getD_some, Option.getD_some]
    · rfl

theorem mem_membersAt_gather :
    a ∈ (map.gather items).membersAt key ↔ a ∈ map.membersAt key ∨ ∃ item ∈ items, item.1 = key ∧ a ∈ item.2 := by
  induction items generalizing map with
  | nil => simp [gather]
  | cons item rest ih =>
    have hstep : a ∈ (map.gather (item :: rest)).membersAt key ↔
        a ∈ (map.addMembers item.1 item.2).membersAt key ∨ ∃ item ∈ rest, item.1 = key ∧ a ∈ item.2 := ih
    rw [hstep, membersAt_addMembers, List.exists_mem_cons_iff, ← or_assoc]
    refine or_congr_left ?_
    split_ifs with heq
    · rw [Finset.mem_union, heq]
      simp
    · simp [Ne.symm heq]

theorem mem_membersAt_spread {parent : κ → Option κ} :
    a ∈ (map.spread parent).membersAt key ↔
      a ∈ map.membersAt key ∨ ∃ child, parent child = some key ∧ a ∈ map.membersAt child := by
  rw [spread, mem_membersAt_gather, ← exists_mem_entries_iff]
  refine or_congr_right ⟨?_, ?_⟩
  · rintro ⟨item, hmem, rfl, ha⟩
    obtain ⟨entry, hentry, hsome⟩ := List.mem_filterMap.mp hmem
    obtain ⟨above, habove, rfl⟩ := Option.map_eq_some_iff.mp hsome
    exact ⟨entry, hentry, habove, ha⟩
  · rintro ⟨entry, hentry, hover, ha⟩
    exact ⟨(key, entry.2), List.mem_filterMap.mpr ⟨entry, hentry, by rw [hover, Option.map_some]⟩, rfl, ha⟩

/-- What is gathered and spread under a key is what is declared for it, or for a key which has it over it. -/
theorem mem_membersAt_spread_gather {parent : κ → Option κ} :
    a ∈ ((empty.gather items).spread parent).membersAt key ↔
      ∃ item ∈ items, (item.1 = key ∨ parent item.1 = some key) ∧ a ∈ item.2 := by
  have hgather : ∀ other, a ∈ ((empty : OrderedMap κ (Finset α)).gather items).membersAt other ↔
      ∃ item ∈ items, item.1 = other ∧ a ∈ item.2 := by
    intro other
    rw [mem_membersAt_gather, membersAt_empty]
    simp
  rw [mem_membersAt_spread]
  simp only [hgather]
  constructor
  · rintro (⟨item, hmem, heq, ha⟩ | ⟨child, hover, item, hmem, rfl, ha⟩)
    · exact ⟨item, hmem, .inl heq, ha⟩
    · exact ⟨item, hmem, .inr hover, ha⟩
  · rintro ⟨item, hmem, heq | hover, ha⟩
    · exact .inl ⟨item, hmem, heq, ha⟩
    · exact .inr ⟨item.1, hover, item, hmem, rfl, ha⟩

theorem mem_keys_gather {items : List (κ × Finset α)} :
    key ∈ (map.gather items).keys ↔ key ∈ map.keys ∨ key ∈ items.map Prod.fst := by
  induction items generalizing map with
  | nil => simp [gather]
  | cons item rest ih =>
    have hstep : key ∈ (map.gather (item :: rest)).keys ↔
        key ∈ (map.addMembers item.1 item.2).keys ∨ key ∈ rest.map Prod.fst := ih
    have hadd : key ∈ (map.addMembers item.1 item.2).keys ↔ key = item.1 ∨ key ∈ map.keys := by
      unfold addMembers insertWith
      split <;> exact mem_keys_insert
    rw [hstep, hadd, List.map_cons, List.mem_cons]
    tauto

end OrderedMap

/-- Where results keep the keys of their items, they stand in the order of the items. -/
theorem sublist_reduceOption {α β κ : Type*} {of : α → κ} {key : β → κ} {items : List α} {results : List (Option β)}
    (h : List.Forall₂ (fun item result ↦ ∀ found, result = some found → key found = of item) items results) :
    (results.reduceOption.map key).Sublist (items.map of) := by
  induction h with
  | nil => exact .slnil
  | @cons item result items results hhead _ ih =>
    cases result with
    | none => exact ih.cons (of item)
    | some found =>
      rw [List.reduceOption_cons_of_some, List.map_cons, List.map_cons, hhead found rfl]
      exact ih.cons_cons (of item)

end IsvValidation.Library
