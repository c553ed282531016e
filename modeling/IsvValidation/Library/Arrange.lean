import Mathlib.Data.List.Sort

/-!
# Stable sorting

A stable sort by one key leaves items with the same key as they were. It is therefore determined by
what it keeps: the order of the keys, and the items of each key. From this follows when sorting by
two keys comes to the same.
-/

namespace IsvValidation.Library

variable {α : Type*} {key tag : α → ℕ} {items : List α}

/-- Sorted by a key, items with the same key in the order in which they stood. -/
def sortByKey (key : α → ℕ) (items : List α) : List α :=
  items.insertionSort fun a b ↦ key a ≤ key b

theorem perm_sortByKey (key : α → ℕ) (items : List α) : (sortByKey key items).Perm items :=
  List.perm_insertionSort _ items

@[simp] theorem mem_sortByKey {a : α} : a ∈ sortByKey key items ↔ a ∈ items :=
  (perm_sortByKey key items).mem_iff

theorem pairwise_sortByKey (key : α → ℕ) (items : List α) :
    (sortByKey key items).Pairwise fun a b ↦ key a ≤ key b := by
  have : Std.Total fun a b : α ↦ key a ≤ key b := ⟨fun a b ↦ Nat.le_total (key a) (key b)⟩
  have : IsTrans α fun a b ↦ key a ≤ key b := ⟨fun _ _ _ ↦ Nat.le_trans⟩
  exact List.pairwise_insertionSort _ items

/-- Sorting does not depend on the order of the items where those which stand before each other are the
same. -/
theorem insertionSort_eq_of_perm {r : α → α → Prop} [DecidableRel r] [Std.Total r] [IsTrans α r]
    {one other : List α} (hperm : one.Perm other)
    (hanti : ∀ a ∈ one, ∀ b ∈ other, r a b → r b a → a = b) :
    one.insertionSort r = other.insertionSort r := by
  apply List.Perm.eq_of_pairwise
  · intro a b ha hb
    exact hanti a ((List.mem_insertionSort r).mp ha) b ((List.mem_insertionSort r).mp hb)
  · exact List.pairwise_insertionSort r one
  · exact List.pairwise_insertionSort r other
  · exact (List.perm_insertionSort r one).trans (hperm.trans (List.perm_insertionSort r other).symm)

/-- Items which a stable sort takes for equal are not moved against each other. -/
theorem filter_insertionSort {r : α → α → Prop} [DecidableRel r] [Std.Total r] [IsTrans α r]
    {p : α → Bool} (hp : ∀ a b, p a = true → p b = true → r a b) (items : List α) :
    (items.insertionSort r).filter p = items.filter p := by
  have hequal : (items.filter p).Pairwise r := by
    rw [List.pairwise_filter]
    exact List.pairwise_of_forall hp
  have hsublist := (List.sublist_insertionSort hequal List.filter_sublist).filter p
  simp only [List.filter_filter, Bool.and_self] at hsublist
  symm
  apply hsublist.eq_of_length
  exact ((List.perm_insertionSort r items).filter p).length_eq.symm

/-- The items of one key are not moved against each other. -/
theorem filter_sortByKey (key : α → ℕ) (items : List α) (k : ℕ) :
    (sortByKey key items).filter (key · = k) = items.filter (key · = k) := by
  have : Std.Total fun a b : α ↦ key a ≤ key b := ⟨fun a b ↦ Nat.le_total (key a) (key b)⟩
  have : IsTrans α fun a b ↦ key a ≤ key b := ⟨fun _ _ _ ↦ Nat.le_trans⟩
  apply filter_insertionSort
  intro a b ha hb
  simp only [decide_eq_true_iff] at ha hb
  omega

/-- Two lists in the order of the keys with the same items of each key are the same. -/
theorem eq_of_filter_eq {first second : List α} (hfirst : first.Pairwise fun a b ↦ key a ≤ key b)
    (hsecond : second.Pairwise fun a b ↦ key a ≤ key b)
    (h : ∀ k, first.filter (key · = k) = second.filter (key · = k)) : first = second := by
  induction first generalizing second with
  | nil =>
    cases second with
    | nil => rfl
    | cons b rest =>
      have hb := h (key b)
      simp at hb
  | cons a rest ih =>
    cases second with
    | nil =>
      have ha := h (key a)
      simp at ha
    | cons b others =>
      rw [List.pairwise_cons] at hfirst hsecond
      have hmem : ∀ c, c ∈ a :: rest ↔ c ∈ b :: others := by
        intro c
        have hc := congrArg (c ∈ ·) (h (key c))
        simpa using hc
      have hle : key a ≤ key b := by
        rcases List.mem_cons.mp ((hmem b).mpr (List.mem_cons_self ..)) with heq | hrest
        · exact heq ▸ le_rfl
        · exact hfirst.1 b hrest
      have hge : key b ≤ key a := by
        rcases List.mem_cons.mp ((hmem a).mp (List.mem_cons_self ..)) with heq | hrest
        · exact heq ▸ le_rfl
        · exact hsecond.1 a hrest
      have hsame : key a = key b := Nat.le_antisymm hle hge
      have hhead := h (key a)
      simp only [List.filter_cons, decide_true, if_true, ← hsame, List.cons.injEq] at hhead
      rw [hhead.1, ih hfirst.2 hsecond.2]
      intro k
      have hk := h k
      rw [hhead.1, List.filter_cons, List.filter_cons] at hk
      split at hk
      · exact (List.cons.inj hk).2
      · exact hk

/-- What a stable sort is. -/
theorem sortByKey_eq_iff {sorted : List α} :
    sortByKey key items = sorted ↔
      (sorted.Pairwise fun a b ↦ key a ≤ key b) ∧
        ∀ k, sorted.filter (key · = k) = items.filter (key · = k) := by
  constructor
  · rintro rfl
    exact ⟨pairwise_sortByKey key items, filter_sortByKey key items⟩
  · intro h
    apply eq_of_filter_eq (pairwise_sortByKey key items) h.1
    intro k
    rw [filter_sortByKey, h.2]

theorem sortByKey_eq_self : sortByKey key items = items ↔
    items.Pairwise fun a b ↦ key a ≤ key b := by
  rw [sortByKey_eq_iff]
  exact and_iff_left fun _ ↦ rfl

/-- Leaving items out commutes with sorting. -/
theorem sortByKey_filter (key : α → ℕ) (p : α → Bool) (items : List α) :
    sortByKey key (items.filter p) = (sortByKey key items).filter p := by
  rw [sortByKey_eq_iff]
  constructor
  · exact (pairwise_sortByKey key items).sublist List.filter_sublist
  · intro k
    rw [List.filter_comm, filter_sortByKey, List.filter_comm]

/-- Grouping by a tag, the groups in increasing order, is sorting by it. -/
theorem flatMap_filter_eq_sortByKey {tags : List ℕ} (htags : tags.Pairwise (· < ·))
    (hall : ∀ a ∈ items, tag a ∈ tags) :
    (tags.flatMap fun t ↦ items.filter (tag · = t)) = sortByKey tag items := by
  symm
  rw [sortByKey_eq_iff]
  constructor
  · rw [List.pairwise_flatMap]
    constructor
    · intro t _
      rw [List.pairwise_filter]
      apply List.pairwise_of_forall
      intro a b ha hb
      simp only [decide_eq_true_iff] at ha hb
      omega
    · apply htags.imp
      intro s t hlt a ha b hb
      have hs : tag a = s := by simpa using (List.mem_filter.mp ha).2
      have ht : tag b = t := by simpa using (List.mem_filter.mp hb).2
      omega
  · intro k
    have hgroup : ∀ t, (items.filter (tag · = t)).filter (tag · = k) =
        if t = k then items.filter (tag · = k) else [] := by
      intro t
      split
      · rename_i heq
        simp only [heq, List.filter_filter, Bool.and_self]
      · rename_i hne
        rw [List.filter_filter, List.filter_eq_nil_iff]
        intro a _
        simp only [Bool.and_eq_true, decide_eq_true_iff, not_and]
        omega
    rw [List.filter_flatMap]
    simp only [hgroup]
    by_cases hk : k ∈ tags
    · obtain ⟨before, after, rfl⟩ := List.append_of_mem hk
      rw [List.pairwise_append, List.pairwise_cons] at htags
      have hbefore : before.flatMap (fun t ↦ if t = k then items.filter (tag · = k) else []) =
          [] := by
        rw [List.flatMap_eq_nil_iff]
        intro t ht
        exact if_neg (htags.2.2 t ht k (List.mem_cons_self ..)).ne
      have hafter : after.flatMap (fun t ↦ if t = k then items.filter (tag · = k) else []) =
          [] := by
        rw [List.flatMap_eq_nil_iff]
        intro t ht
        exact if_neg (htags.2.1.1 t ht).ne'
      rw [List.flatMap_append, List.flatMap_cons, hbefore, hafter, if_pos rfl]
      simp
    · have hnone : items.filter (tag · = k) = [] := by
        rw [List.filter_eq_nil_iff]
        intro a ha heq
        simp only [decide_eq_true_iff] at heq
        exact hk (heq ▸ hall a ha)
      rw [hnone, List.flatMap_eq_nil_iff]
      intro t _
      split <;> rfl

/-- Sorting by one key comes to sorting by another where no two items are kept apart by the two
keys, and items with one key stand in the order of the other. -/
theorem sortByKey_eq_sortByKey_iff :
    sortByKey key items = sortByKey tag items ↔
      (∀ a ∈ items, ∀ b ∈ items, tag a < tag b → key a ≤ key b) ∧
        (items.Pairwise fun a b ↦ tag a = tag b → key a ≤ key b) ∧
        items.Pairwise fun a b ↦ key a = key b → tag a ≤ tag b := by
  have hfilters : ∀ R : α → α → Prop, ∀ f : α → ℕ, ∀ l : List α,
      (∀ k, (l.filter (f · = k)).Pairwise R) ↔ l.Pairwise fun a b ↦ f a = f b → R a b := by
    intro R f l
    simp only [List.pairwise_filter, decide_eq_true_iff]
    constructor
    · intro h
      rw [List.pairwise_iff_forall_sublist]
      intro a b hab heq
      exact List.pairwise_iff_forall_sublist.mp (h (f b)) hab heq rfl
    · intro h k
      apply h.imp
      intro a b hab ha hb
      exact hab (ha.trans hb.symm)
  have hsorted : ((sortByKey tag items).Pairwise fun a b ↦ key a ≤ key b) ↔
      (∀ a ∈ items, ∀ b ∈ items, tag a < tag b → key a ≤ key b) ∧
        items.Pairwise fun a b ↦ tag a = tag b → key a ≤ key b := by
    rw [← hfilters (fun a b ↦ key a ≤ key b) tag items]
    simp only [← filter_sortByKey tag items]
    rw [hfilters (fun a b ↦ key a ≤ key b) tag]
    constructor
    · intro h
      have hsame : (sortByKey tag items).Pairwise fun a b ↦ tag a = tag b → key a ≤ key b := by
        apply h.imp
        intro a b hab _
        exact hab
      refine ⟨?_, hsame⟩
      have hflip : (sortByKey tag items).Pairwise fun a b ↦ tag b < tag a → key b ≤ key a := by
        apply (pairwise_sortByKey tag items).imp
        intro a b hab hlt
        omega
      have hforward : (sortByKey tag items).Pairwise fun a b ↦ tag a < tag b → key a ≤ key b := by
        apply h.imp
        intro a b hab _
        exact hab
      intro a ha b hb
      apply hforward.forall_of_forall_of_flip (fun c _ _ ↦ le_rfl) hflip
      · exact mem_sortByKey.mpr ha
      · exact mem_sortByKey.mpr hb
    · rintro ⟨hapart, hsame⟩
      have hmem : ∀ {a b}, [a, b].Sublist (sortByKey tag items) → a ∈ items ∧ b ∈ items := by
        intro a b hab
        exact ⟨mem_sortByKey.mp (hab.subset (by simp)), mem_sortByKey.mp (hab.subset (by simp))⟩
      rw [List.pairwise_iff_forall_sublist] at hsame ⊢
      intro a b hab
      have hle := List.pairwise_iff_forall_sublist.mp (pairwise_sortByKey tag items) hab
      rcases Nat.lt_or_eq_of_le hle with hlt | heq
      · exact hapart a (hmem hab).1 b (hmem hab).2 hlt
      · exact hsame hab heq
  have hkept : (∀ k, (sortByKey tag items).filter (key · = k) = items.filter (key · = k)) ↔
      items.Pairwise fun a b ↦ key a = key b → tag a ≤ tag b := by
    rw [← hfilters (fun a b ↦ tag a ≤ tag b) key items]
    apply forall_congr'
    intro k
    rw [← sortByKey_filter, sortByKey_eq_self]
  rw [sortByKey_eq_iff, hsorted, hkept, and_assoc]

end IsvValidation.Library
