import Mathlib.Data.List.Nodup
import Mathlib.Logic.Function.Basic

/-!
# Numbered occurrences and labels

The items of a list are numbered by how often they occurred so far, which makes every numbered item
unique. A label is made by joining parts with a separator; a part without the separator can be read
back from the end of the label.
-/

namespace IsvValidation.Library

variable {α : Type*}

section Number

variable [DecidableEq α]

/-- Each item with the number of its occurrence, where `seen` counts what came before. -/
def numberFrom (seen : α → ℕ) : List α → List (α × ℕ)
  | [] => []
  | a :: rest => (a, seen a + 1) :: numberFrom (Function.update seen a (seen a + 1)) rest

theorem mem_numberFrom {seen : α → ℕ} {items : List α} {a : α} {k : ℕ} :
    (a, k) ∈ numberFrom seen items ↔ seen a < k ∧ k ≤ seen a + items.countP (· = a) := by
  induction items generalizing seen with
  | nil =>
    simp only [numberFrom, List.not_mem_nil, List.countP_nil, false_iff]
    omega
  | cons b rest ih =>
    rw [numberFrom, List.mem_cons, ih, Prod.mk.injEq, List.countP_cons]
    by_cases h : b = a
    · subst h
      simp only [true_and, Function.update_self, decide_true, if_true]
      omega
    · have hne : ¬a = b := fun heq ↦ h heq.symm
      simp only [hne, false_and, false_or, Function.update_of_ne hne, h, decide_false,
        Bool.false_eq_true, if_false]
      omega

theorem nodup_numberFrom (seen : α → ℕ) (items : List α) : (numberFrom seen items).Nodup := by
  induction items generalizing seen with
  | nil => exact List.nodup_nil
  | cons a rest ih =>
    rw [numberFrom, List.nodup_cons]
    refine ⟨fun hmem ↦ ?_, ih _⟩
    have hlt := (mem_numberFrom.mp hmem).1
    rw [Function.update_self] at hlt
    omega

/-- Labels of numbered items are distinct exactly when no two numbered items share one. -/
theorem nodup_map_numberFrom {β : Type*} {label : α × ℕ → β} {items : List α} :
    ((numberFrom (fun _ ↦ 0) items).map label).Nodup ↔
      ∀ a b k l, 1 ≤ k → k ≤ items.countP (· = a) → 1 ≤ l → l ≤ items.countP (· = b) →
        label (a, k) = label (b, l) → a = b ∧ k = l := by
  rw [List.nodup_map_iff_inj_on (nodup_numberFrom _ _)]
  constructor
  · intro h a b k l hk hka hl hlb heq
    have ha : (a, k) ∈ numberFrom (fun _ ↦ 0) items := mem_numberFrom.mpr ⟨hk, by omega⟩
    have hb : (b, l) ∈ numberFrom (fun _ ↦ 0) items := mem_numberFrom.mpr ⟨hl, by omega⟩
    exact Prod.mk.injEq .. ▸ h _ ha _ hb heq
  · intro h x hx y hy heq
    have hxm := mem_numberFrom.mp hx
    have hym := mem_numberFrom.mp hy
    obtain ⟨h₁, h₂⟩ := h x.1 y.1 x.2 y.2 (by omega) (by omega) (by omega) (by omega) heq
    exact Prod.ext h₁ h₂

end Number

/-! ## Labels -/

/-- The part after the last separator can be read back. -/
theorem append_cons_injective {sep : α} {front front' back back' : List α} (h : sep ∉ back)
    (h' : sep ∉ back') (heq : front ++ sep :: back = front' ++ sep :: back') :
    front = front' ∧ back = back' := by
  induction front generalizing front' with
  | nil =>
    cases front' with
    | nil => exact ⟨rfl, (List.cons.inj heq).2⟩
    | cons a rest =>
      have hback := (List.cons.inj heq).2
      exact absurd (hback ▸ List.mem_append_right rest (List.mem_cons_self ..)) h
  | cons a rest ih =>
    cases front' with
    | nil =>
      have hback := (List.cons.inj heq).2
      exact absurd (hback ▸ List.mem_append_right rest (List.mem_cons_self ..)) h'
    | cons b rest' =>
      have hhead := (List.cons.inj heq).1
      have htail := ih (List.cons.inj heq).2
      exact ⟨by rw [hhead, htail.1], htail.2⟩

/-- No separator other than a digit occurs in the decimal digits of a number. -/
theorem notMem_toDigits {sep : Char} (hsep : sep.isDigit = false) (n : ℕ) :
    sep ∉ Nat.toDigits 10 n := by
  intro hmem
  have hdigit := Nat.isDigit_of_mem_toDigits (by decide) (by decide) hmem
  rw [hsep] at hdigit
  cases hdigit

theorem toDigits_injective {m n : ℕ} (h : Nat.toDigits 10 m = Nat.toDigits 10 n) : m = n :=
  calc
    m = Nat.ofDigitChars 10 (Nat.toDigits 10 m) 0 := by simp
    _ = Nat.ofDigitChars 10 (Nat.toDigits 10 n) 0 := by rw [h]
    _ = n := by simp

/-- A text and a number joined with a dash can both be read back. -/
theorem append_dash_number_injective {text text' : String} {m n : ℕ}
    (h : text ++ "-" ++ toString m = text' ++ "-" ++ toString n) : text = text' ∧ m = n := by
  have hlist := congrArg String.toList h
  simp only [String.toList_append, Nat.toString_eq_repr, Nat.toList_repr, List.append_assoc]
    at hlist
  have hparts := append_cons_injective (notMem_toDigits (by decide) m)
    (notMem_toDigits (by decide) n) hlist
  exact ⟨String.toList_inj.mp hparts.1, toDigits_injective hparts.2⟩

end IsvValidation.Library
