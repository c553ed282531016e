import Mathlib.Algebra.GroupWithZero.Nat
import Mathlib.Algebra.BigOperators.Group.Finset.Basic
import Mathlib.Algebra.Order.BigOperators.Group.Finset
import Mathlib.Data.List.Perm.Basic

/-!
# Mapping, counting and cutting lists

A list mapped with a fallible function either fails or gives one result for each item, in order.
The first lemmas describe the successful case by a relation between the two lists. The others
compare counts under two conditions, sums with and without repeated items, and describe the part of
a list up to and including the first item which meets a condition.
-/

namespace IsvValidation.Library

variable {α β γ ε : Type*}

theorem exists_of_isOk {result : Except ε α} (h : result.isOk = true) :
    ∃ value, result = .ok value := by
  cases result with
  | error raised => cases h
  | ok value => exact ⟨value, rfl⟩

/-- Two steps succeed together exactly if the first one does, and the second one on its value. -/
theorem bind_eq_ok.{u} {α β : Type u} {first : Except ε α} {next : α → Except ε β} {result : β} :
    first >>= next = .ok result ↔ ∃ value, first = .ok value ∧ next value = .ok result := by
  cases first with
  | error raised => simp [bind, Except.bind]
  | ok value => simp [bind, Except.bind]

/-- A run is successful exactly if it relates every item to its own result. -/
theorem mapM_eq_ok_iff {f : α → Except ε β} {items : List α} {results : List β} :
    items.mapM f = .ok results ↔ List.Forall₂ (fun a b ↦ f a = .ok b) items results := by
  induction items generalizing results with
  | nil => simp [pure, Except.pure, eq_comm]
  | cons item rest ih =>
    rw [List.mapM_cons, List.forall₂_cons_left_iff, bind_eq_ok]
    simp only [bind_eq_ok, ih, pure, Except.pure, Except.ok.injEq]
    constructor
    · rintro ⟨result, hitem, others, hrest, rfl⟩
      exact ⟨result, others, hitem, hrest, rfl⟩
    · rintro ⟨result, others, hitem, hrest, rfl⟩
      exact ⟨result, hitem, others, hrest, rfl⟩

/-- The results of a successful run are those of its items. -/
theorem mem_of_mapM_ok {f : α → Except ε β} {items : List α} {results : List β}
    (h : items.mapM f = .ok results) (b : β) : b ∈ results ↔ ∃ a ∈ items, f a = .ok b := by
  have hforall := mapM_eq_ok_iff.mp h
  constructor
  · intro hb
    obtain ⟨i, hi, rfl⟩ := List.getElem_of_mem hb
    have hi' : i < items.length := hforall.length_eq ▸ hi
    exact ⟨items[i], List.getElem_mem hi', hforall.get hi' hi⟩
  · rintro ⟨a, ha, hab⟩
    obtain ⟨i, hi, rfl⟩ := List.getElem_of_mem ha
    have hi' : i < results.length := hforall.length_eq ▸ hi
    have hget := hforall.get hi hi'
    simp only [List.get_eq_getElem] at hget
    rw [hab, Except.ok.injEq] at hget
    exact hget ▸ List.getElem_mem hi'

theorem exists_of_mapM_ok {f : α → Except ε β} {items : List α} {results : List β}
    (h : items.mapM f = .ok results) {a : α} (ha : a ∈ items) : ∃ b ∈ results, f a = .ok b := by
  obtain ⟨i, hi, rfl⟩ := List.getElem_of_mem ha
  have hforall := mapM_eq_ok_iff.mp h
  have hi' : i < results.length := hforall.length_eq ▸ hi
  exact ⟨results[i], List.getElem_mem hi', hforall.get hi hi'⟩

/-- Items in another order have the same results in another order. -/
theorem exists_perm_of_mapM_ok {f : α → Except ε β} {items others : List α} {results : List β}
    (hperm : items.Perm others) (h : items.mapM f = .ok results) :
    ∃ found, others.mapM f = .ok found ∧ results.Perm found := by
  have ⟨found, hfound, hsame⟩ := List.perm_comp_forall₂ hperm.symm (mapM_eq_ok_iff.mp h)
  exact ⟨found, mapM_eq_ok_iff.mpr hfound, hsame.symm⟩

theorem mapM_eq_some_iff {f : α → Option β} {items : List α} {results : List β} :
    items.mapM f = some results ↔ List.Forall₂ (fun a b ↦ f a = some b) items results := by
  induction items generalizing results with
  | nil => simp [eq_comm]
  | cons item rest ih =>
    rw [List.mapM_cons, List.forall₂_cons_left_iff]
    simp only [Option.bind_eq_bind, Option.bind_eq_some_iff, ih, pure, Option.some.injEq]
    constructor
    · rintro ⟨result, hitem, others, hrest, rfl⟩
      exact ⟨result, others, hitem, hrest, rfl⟩
    · rintro ⟨result, others, hitem, hrest, rfl⟩
      exact ⟨result, hitem, others, hrest, rfl⟩

theorem exists_perm_of_mapM_some {f : α → Option β} {items others : List α} {results : List β}
    (hperm : items.Perm others) (h : items.mapM f = some results) :
    ∃ found, others.mapM f = some found ∧ results.Perm found := by
  have ⟨found, hfound, hsame⟩ := List.perm_comp_forall₂ hperm.symm (mapM_eq_some_iff.mp h)
  exact ⟨found, mapM_eq_some_iff.mpr hfound, hsame.symm⟩

/-- Where no item fails, the whole list is mapped. -/
theorem exists_mapM_ok {f : α → Except ε β} {items : List α}
    (h : ∀ item ∈ items, ∃ result, f item = .ok result) : ∃ results, items.mapM f = .ok results := by
  induction items with
  | nil => exact ⟨[], rfl⟩
  | cons item rest ih =>
    obtain ⟨result, hresult⟩ := h item (List.mem_cons_self ..)
    obtain ⟨others, hothers⟩ := ih fun other hmem ↦ h other (List.mem_cons_of_mem item hmem)
    refine ⟨result :: others, ?_⟩
    rw [List.mapM_cons, hresult, hothers]
    rfl

/-- A list is mapped to given results exactly if each item is. -/
theorem mapM_map_eq_ok_iff {f : β → Except ε γ} {g : α → β} {result : α → γ} {items : List α} :
    (items.map g).mapM f = .ok (items.map result) ↔ ∀ item ∈ items, f (g item) = .ok (result item) := by
  rw [mapM_eq_ok_iff, List.forall₂_map_left_iff, List.forall₂_map_right_iff, List.forall₂_same]

/-- A list fails exactly if an item does. -/
theorem exists_mapM_error_iff {f : α → Except ε β} {items : List α} :
    (∃ raised, items.mapM f = .error raised) ↔ ∃ item ∈ items, ∃ raised, f item = .error raised := by
  constructor
  · intro ⟨raised, hraised⟩
    by_contra hnone
    have hok : ∀ item ∈ items, ∃ result, f item = .ok result := by
      intro item hitem
      match hresult : f item with
      | .ok result => exact ⟨result, rfl⟩
      | .error raised => exact absurd ⟨item, hitem, raised, hresult⟩ hnone
    have ⟨results, hresults⟩ := exists_mapM_ok hok
    rw [hresults] at hraised
    exact nomatch hraised
  · intro ⟨item, hitem, raised, hraised⟩
    match hresults : items.mapM f with
    | .error raised => exact ⟨raised, rfl⟩
    | .ok results =>
      have ⟨i, hi, heq⟩ := List.getElem_of_mem hitem
      have hforall := mapM_eq_ok_iff.mp hresults
      have hget := hforall.get hi (hforall.length_eq ▸ hi)
      rw [List.get_eq_getElem, heq, hraised] at hget
      exact nomatch hget

theorem exists_mapM_some {f : α → Option β} {items : List α}
    (h : ∀ item ∈ items, (f item).isSome) : ∃ results, items.mapM f = some results := by
  induction items with
  | nil => exact ⟨[], rfl⟩
  | cons item rest ih =>
    obtain ⟨result, hresult⟩ := Option.isSome_iff_exists.mp (h item (List.mem_cons_self ..))
    obtain ⟨others, hothers⟩ := ih fun other hmem ↦ h other (List.mem_cons_of_mem item hmem)
    refine ⟨result :: others, ?_⟩
    rw [List.mapM_cons, hresult, hothers]
    rfl

theorem mapM_congr_of_mem {f g : α → Except ε β} {items : List α}
    (h : ∀ item ∈ items, f item = g item) : items.mapM f = items.mapM g := by
  induction items with
  | nil => rfl
  | cons item rest ih =>
    have hrest : rest.mapM f = rest.mapM g :=
      ih fun other hmem ↦ h other (List.mem_cons_of_mem item hmem)
    rw [List.mapM_cons, List.mapM_cons, h item (List.mem_cons_self ..), hrest]

/-- Lists related through a list between them. -/
theorem forall₂_comp {R : α → β → Prop} {S : β → γ → Prop} {T : α → γ → Prop}
    (himp : ∀ a b c, R a b → S b c → T a c) {items : List α} {between : List β} {results : List γ}
    (h : List.Forall₂ R items between) (hafter : List.Forall₂ S between results) :
    List.Forall₂ T items results := by
  induction h generalizing results with
  | nil =>
    cases hafter
    exact .nil
  | cons hab _ ih =>
    cases hafter with
    | cons hbc hrest => exact .cons (himp _ _ _ hab hbc) (ih hrest)

/-- Two lists related item by item agree on how many items satisfy related conditions. -/
theorem countP_eq_of_forall₂ {R : α → β → Prop} {p : α → Bool} {q : β → Bool} {items : List α}
    {results : List β} (h : List.Forall₂ R items results) (hpq : ∀ a b, R a b → p a = q b) :
    items.countP p = results.countP q := by
  induction h with
  | nil => rfl
  | cons hab _ ih => rw [List.countP_cons, List.countP_cons, ih, hpq _ _ hab]

/-- Where every item has a value, collecting the values drops none. -/
theorem map_some_filterMap {f : α → Option β} {items : List α}
    (h : ∀ item ∈ items, (f item).isSome) : (items.filterMap f).map some = items.map f := by
  induction items with
  | nil => rfl
  | cons item rest ih =>
    obtain ⟨value, hvalue⟩ := Option.isSome_iff_exists.mp (h item (List.mem_cons_self ..))
    rw [List.filterMap_cons_some hvalue, List.map_cons, List.map_cons, hvalue,
      ih fun other hmem ↦ h other (List.mem_cons_of_mem item hmem)]

theorem map_fst_zip_sublist (items : List α) (results : List β) :
    List.Sublist ((items.zip results).map Prod.fst) items := by
  induction items generalizing results with
  | nil => exact List.Sublist.refl _
  | cons item rest ih =>
    cases results with
    | nil => exact List.nil_sublist _
    | cons result others => exact (ih others).cons_cons item

/-- A condition which implies another counts as many items exactly when the converse holds too. -/
theorem countP_eq_iff_of_imp {p q : α → Bool} {items : List α}
    (himp : ∀ a ∈ items, p a = true → q a = true) :
    items.countP p = items.countP q ↔ ∀ a ∈ items, q a = true → p a = true := by
  constructor
  · induction items with
    | nil => simp
    | cons item rest ih =>
      intro hcount
      have hrest : ∀ a ∈ rest, p a = true → q a = true := fun a ha ↦
        himp a (List.mem_cons_of_mem item ha)
      have hle := List.countP_mono_left hrest
      have hitem := himp item (List.mem_cons_self ..)
      rw [List.countP_cons, List.countP_cons] at hcount
      have hboth : rest.countP p = rest.countP q ∧ (q item = true → p item = true) := by
        by_cases hp : p item = true
        · simp only [hp, hitem hp, if_true] at hcount
          exact ⟨by omega, fun _ ↦ hp⟩
        · by_cases hq : q item = true
          · simp only [hp, hq, if_true, Bool.false_eq_true, if_false] at hcount
            omega
          · simp only [hp, hq, Bool.false_eq_true, if_false] at hcount
            exact ⟨by omega, fun h ↦ absurd h hq⟩
      intro a ha
      rcases List.mem_cons.mp ha with rfl | hmem
      · exact hboth.2
      · exact ih hrest hboth.1 a hmem
  · intro hback
    apply List.countP_congr
    intro a ha
    exact ⟨himp a ha, hback a ha⟩

/-- Counting repeated items once leaves a sum of naturals unchanged exactly when every repeated
item weighs nothing. -/
theorem sum_map_eq_dedup_iff [DecidableEq α] (weight : α → ℕ) (items : List α) :
    (items.map weight).sum = (items.dedup.map weight).sum ↔
      ∀ a, 2 ≤ items.count a → weight a = 0 := by
  have hall := Finset.sum_list_map_count items weight
  have honce : (items.dedup.map weight).sum = ∑ a ∈ items.toFinset, weight a := by
    have hperm : items.toFinset = items.dedup.toFinset :=
      List.toFinset_eq_iff_perm_dedup.mpr (by rw [List.dedup_idem])
    rw [hperm, List.sum_toFinset weight (List.nodup_dedup items)]
  have hle : ∀ a ∈ items.toFinset, weight a ≤ items.count a • weight a := by
    intro a ha
    have hpos := List.count_pos_iff.mpr (List.mem_toFinset.mp ha)
    exact Nat.le_mul_of_pos_left _ hpos
  rw [hall, honce, eq_comm, Finset.sum_eq_sum_iff_of_le hle]
  constructor
  · intro h a htwo
    have hmem : a ∈ items := List.count_pos_iff.mp (by omega)
    have heq := h a (List.mem_toFinset.mpr hmem)
    rw [Nat.nsmul_eq_mul] at heq
    rcases Nat.eq_zero_or_pos (weight a) with hzero | hpos
    · exact hzero
    · have hone : items.count a = 1 := Nat.eq_of_mul_eq_mul_right hpos (by omega)
      omega
  · intro h a ha
    have hpos := List.count_pos_iff.mpr (List.mem_toFinset.mp ha)
    rcases Nat.lt_or_ge (items.count a) 2 with hlt | hge
    · have hone : items.count a = 1 := by omega
      rw [hone, one_nsmul]
    · simp [h a hge]

/-- Appending distinct new items repeats none of them. -/
theorem two_le_count_append [DecidableEq α] {items added : List α} (hnodup : added.Nodup)
    (hnew : ∀ a ∈ added, a ∉ items) (a : α) :
    2 ≤ (items ++ added).count a ↔ 2 ≤ items.count a := by
  have hone := List.nodup_iff_count_le_one.mp hnodup a
  rw [List.count_append]
  by_cases hmem : a ∈ added
  · have hzero : items.count a = 0 := List.count_eq_zero.mpr (hnew a hmem)
    omega
  · have hzero : added.count a = 0 := List.count_eq_zero.mpr hmem
    omega

theorem two_le_count_concat [DecidableEq α] {items : List α} {last : α} (hlast : last ∈ items)
    (a : α) : 2 ≤ (items ++ [last]).count a ↔ 2 ≤ items.count a ∨ a = last := by
  have hpos := List.count_pos_iff.mpr hlast
  rw [List.count_append, List.count_singleton]
  by_cases heq : last = a
  · subst heq
    simp only [beq_self_eq_true, if_true, or_true, iff_true]
    omega
  · have hne : ¬a = last := fun h ↦ heq h.symm
    simp [heq, hne]

/-! ## Parts between separators -/

/-- What stands in parts with separators between them is from a separator or from a part. -/
theorem mem_intercalate {separator : List α} {c : α} {parts : List (List α)}
    (h : c ∈ separator.intercalate parts) : c ∈ separator ∨ ∃ part ∈ parts, c ∈ part := by
  induction parts with
  | nil => exact absurd h List.not_mem_nil
  | cons part rest ih =>
    match rest with
    | [] =>
      rw [List.intercalate_singleton] at h
      exact .inr ⟨part, List.mem_cons_self, h⟩
    | next :: rest =>
      rw [List.intercalate_cons_cons, List.mem_append, List.mem_append] at h
      match h with
      | .inl (.inl hpart) => exact .inr ⟨part, List.mem_cons_self, hpart⟩
      | .inl (.inr hseparator) => exact .inl hseparator
      | .inr hrest =>
        exact (ih hrest).imp_right fun ⟨found, hfound, hc⟩ ↦
          ⟨found, List.mem_cons_of_mem _ hfound, hc⟩

theorem mem_intercalate_of_mem {separator : List α} {c : α} {part : List α}
    {parts : List (List α)} (hpart : part ∈ parts) (hc : c ∈ part) :
    c ∈ separator.intercalate parts := by
  induction parts with
  | nil => exact absurd hpart List.not_mem_nil
  | cons first rest ih =>
    match rest with
    | [] =>
      rw [List.intercalate_singleton, ← List.mem_singleton.mp hpart]
      exact hc
    | next :: rest =>
      rw [List.intercalate_cons_cons, List.mem_append, List.mem_append]
      match List.mem_cons.mp hpart with
      | .inl heq => exact .inl (.inl (heq ▸ hc))
      | .inr hrest => exact .inr (ih hrest)

/-! ## Up to the first match -/

/-- The items up to and including the first one which satisfies `p`. -/
def takeThrough (p : α → Bool) : List α → List α
  | [] => []
  | item :: rest => if p item then [item] else item :: takeThrough p rest

@[simp] theorem takeThrough_nil (p : α → Bool) : takeThrough p [] = [] := rfl

theorem takeThrough_eq_self {p : α → Bool} {items : List α} (h : ∀ a ∈ items, p a = false) :
    takeThrough p items = items := by
  induction items with
  | nil => rfl
  | cons item rest ih =>
    rw [takeThrough, h item (List.mem_cons_self ..)]
    simpa using ih fun a ha ↦ h a (List.mem_cons_of_mem item ha)

theorem takeThrough_append_cons {p : α → Bool} {before : List α} {item : α} (after : List α)
    (hbefore : ∀ a ∈ before, p a = false) (hitem : p item = true) :
    takeThrough p (before ++ item :: after) = before ++ [item] := by
  induction before with
  | nil => simp [takeThrough, hitem]
  | cons first rest ih =>
    rw [List.cons_append, takeThrough, hbefore first (List.mem_cons_self ..)]
    simpa using ih fun a ha ↦ hbefore a (List.mem_cons_of_mem first ha)

theorem takeThrough_sublist (p : α → Bool) (items : List α) :
    List.Sublist (takeThrough p items) items := by
  induction items with
  | nil => exact List.Sublist.refl _
  | cons item rest ih =>
    rw [takeThrough]
    split
    · exact (List.nil_sublist rest).cons_cons item
    · exact ih.cons_cons item

/-! ## The order of a search -/

/-- A search does not depend on the order of the list exactly if one item at most can be found. -/
theorem find?_perm_iff {p : α → Bool} {items : List α} :
    (∀ order : List α, order.Perm items → order.find? p = items.find? p) ↔
      ∀ a ∈ items, ∀ b ∈ items, p a = true → p b = true → a = b := by
  constructor
  · intro h a ha b hb hpa hpb
    have hfirst : ∀ item ∈ items, p item = true → items.find? p = some item := by
      intro item hitem hp
      obtain ⟨front, back, hsplit⟩ := List.append_of_mem hitem
      have hperm : (item :: (front ++ back)).Perm items := hsplit ▸ List.perm_middle.symm
      rw [← h _ hperm, List.find?_cons_of_pos hp]
    have heq := (hfirst a ha hpa).symm.trans (hfirst b hb hpb)
    exact Option.some.inj heq
  · intro h order hperm
    cases hfound : items.find? p with
    | none =>
      rw [List.find?_eq_none] at hfound ⊢
      exact fun item hitem ↦ hfound item (hperm.subset hitem)
    | some item =>
      have hmem := List.mem_of_find?_eq_some hfound
      have hp := List.find?_some hfound
      cases hother : order.find? p with
      | none => exact absurd hp (List.find?_eq_none.mp hother item (hperm.symm.subset hmem))
      | some other =>
        rw [h other (hperm.subset (List.mem_of_find?_eq_some hother)) item hmem (List.find?_some hother) hp]

end IsvValidation.Library
