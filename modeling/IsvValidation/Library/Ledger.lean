import Mathlib.Data.List.Nodup
import Mathlib.Data.List.Perm.Basic

/-!
# Ledgers

A ledger books keys on pages, in any order and on any number of pages, but each key once. Pages
grow at the end, a ledger whose keys are disjoint from those booked so far may be appended, and a
list of items falls into one page for each value of a classifying function.
-/

namespace IsvValidation.Library

variable {ι α κ : Type*}

/-- The pages list exactly the booked keys, each of them once. -/
structure Books (pages : List (List ι)) (booked : ι → Prop) : Prop where
  nodup : pages.flatten.Nodup
  mem : ∀ i, i ∈ pages.flatten ↔ booked i

namespace Books

variable {pages more : List (List ι)} {booked fresh : ι → Prop}

theorem nil : Books ([] : List (List ι)) fun _ ↦ False := ⟨List.nodup_nil, by simp⟩

theorem single {page : List ι} (h : page.Nodup) : Books [page] (· ∈ page) := by
  constructor
  · simpa using h
  · simp

theorem congr (h : Books pages booked) (heq : ∀ i, fresh i ↔ booked i) : Books pages fresh :=
  ⟨h.nodup, fun i ↦ (h.mem i).trans (heq i).symm⟩

/-- Disjoint ledgers are bound together. -/
theorem append (h : Books pages booked) (hmore : Books more fresh)
    (hdisjoint : ∀ i, fresh i → ¬ booked i) : Books (pages ++ more) fun i ↦ booked i ∨ fresh i := by
  constructor
  · rw [List.flatten_append, List.nodup_append]
    refine ⟨h.nodup, hmore.nodup, ?_⟩
    rintro i hi j hj rfl
    exact hdisjoint i ((hmore.mem i).mp hj) ((h.mem i).mp hi)
  · intro i
    rw [List.flatten_append, List.mem_append, h.mem, hmore.mem]

/-- One page for each class of items. -/
theorem classes [DecidableEq κ] {items : List α} {index : α → ι} {key : α → κ} {keys : List κ}
    (hitems : (items.map index).Nodup) (hkeys : keys.Nodup) (hcover : ∀ a ∈ items, key a ∈ keys) :
    Books (keys.map fun k ↦ (items.filter fun a ↦ key a = k).map index)
      (· ∈ items.map index) := by
  have hinj : ∀ a ∈ items, ∀ b ∈ items, index a = index b → a = b :=
    fun a ha b hb ↦ List.inj_on_of_nodup_map hitems ha hb
  constructor
  · rw [List.nodup_flatten]
    constructor
    · intro page hpage
      obtain ⟨k, _, rfl⟩ := List.mem_map.mp hpage
      exact (List.filter_sublist.map index).nodup hitems
    · rw [List.pairwise_map]
      apply hkeys.imp
      intro k k' hne i hi hi'
      obtain ⟨a, ha, rfl⟩ := List.mem_map.mp hi
      obtain ⟨b, hb, hab⟩ := List.mem_map.mp hi'
      simp only [List.mem_filter, decide_eq_true_eq] at ha hb
      apply hne
      calc
        k = key a := ha.2.symm
        _ = key b := by rw [hinj b hb.1 a ha.1 hab]
        _ = k' := hb.2
  · intro i
    simp only [List.mem_flatten, List.mem_map]
    constructor
    · rintro ⟨_, ⟨k, _, rfl⟩, hi⟩
      obtain ⟨a, ha, rfl⟩ := List.mem_map.mp hi
      exact ⟨a, (List.mem_filter.mp ha).1, rfl⟩
    · rintro ⟨a, ha, rfl⟩
      refine ⟨_, ⟨key a, hcover a ha, rfl⟩, List.mem_map.mpr ⟨a, ?_, rfl⟩⟩
      simp [ha]

/-- A ledger of all items lists them up to order. -/
theorem perm {items : List ι} (h : Books pages booked) (hitems : items.Nodup)
    (heq : ∀ i, booked i ↔ i ∈ items) : pages.flatten.Perm items :=
  (List.perm_ext_iff_of_nodup h.nodup hitems).mpr fun i ↦ (h.mem i).trans (heq i)

end Books

end IsvValidation.Library
