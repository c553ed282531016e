import IsvValidation.Library.Pattern
import Mathlib.Data.List.Chain

/-!
# Replacing the matches of a pattern

A substitution goes over a text from left to right. It leaves a part alone in which no match starts,
and goes on behind a match with what is left. What holds of every character of the text and of every
replacement holds of every character of the result, and a relation between neighbours survives when
replacements do not care for their neighbours.
-/

namespace IsvValidation.Library.Pattern

variable {α β : Type} {pattern : Pattern α β} {replace : β → List α}

/-- Every match takes at least one character, and leaves the end of the text. -/
def Consuming (pattern : Pattern α β) : Prop :=
  ∀ text capture rest, (capture, rest) ∈ pattern text → ∃ c taken, text = c :: taken ++ rest

@[simp] theorem sub_nil : sub pattern replace [] = [] := by
  rfl

theorem sub_of_none {c : α} {rest : List α} (h : match? pattern (c :: rest) = none) :
    sub pattern replace (c :: rest) = c :: sub pattern replace rest := by
  rw [sub, subFrom, h]
  rfl

theorem subFrom_append (taken rest : List α) :
    subFrom pattern replace taken.length (taken ++ rest) = subFrom pattern replace 0 rest := by
  induction taken with
  | nil => rfl
  | cons c taken ih => rw [List.length_cons, List.cons_append, subFrom, ih]

theorem sub_of_match {c : α} {taken rest : List α} {capture : β}
    (h : match? pattern (c :: taken ++ rest) = Option.some (capture, rest)) :
    sub pattern replace (c :: taken ++ rest) = replace capture ++ sub pattern replace rest := by
  rw [List.cons_append] at h ⊢
  rw [sub, subFrom, h]
  simp only
  rw [List.length_append, Nat.add_sub_cancel, subFrom_append]
  rfl

/-- A part of the text in which no match starts stays. -/
theorem sub_append_of_none {part rest : List α}
    (h : ∀ before c after, part = before ++ c :: after →
      match? pattern (c :: after ++ rest) = none) :
    sub pattern replace (part ++ rest) = part ++ sub pattern replace rest := by
  induction part with
  | nil => rfl
  | cons c part ih =>
    have hnone := h [] c part rfl
    rw [List.cons_append] at hnone ⊢
    rw [sub_of_none hnone, List.cons_append,
      ih fun before d after heq ↦ h (c :: before) d after (by rw [heq, List.cons_append])]

/-- The steps of a substitution: it ends, keeps a character, or replaces a match. -/
theorem sub_induction (hconsuming : Consuming pattern) {motive : List α → List α → Prop}
    (nil : motive [] [])
    (keep : ∀ c rest result, motive rest result → motive (c :: rest) (c :: result))
    (swap : ∀ c taken rest capture result, (capture, rest) ∈ pattern (c :: taken ++ rest) →
      motive rest result → motive (c :: taken ++ rest) (replace capture ++ result)) :
    ∀ text, motive text (sub pattern replace text) := by
  intro text
  induction hlength : text.length using Nat.strong_induction_on generalizing text with
  | _ length ih =>
    match text with
    | [] => exact nil
    | c :: rest =>
      match hmatch : match? pattern (c :: rest) with
      | none =>
        rw [sub_of_none hmatch]
        exact keep c rest _ (ih rest.length (by rw [← hlength, List.length_cons]; omega) rest rfl)
      | Option.some (capture, after) =>
        have hway := mem_of_match? hmatch
        have ⟨first, taken, htext⟩ := hconsuming _ _ _ hway
        rw [htext] at hmatch hway hlength ⊢
        rw [sub_of_match hmatch]
        refine swap first taken after capture _ hway (ih after.length ?_ after rfl)
        rw [← hlength, List.length_append, List.length_cons]
        omega

/-- Every character of the result is one of the text or of a replacement. -/
theorem mem_sub (hconsuming : Consuming pattern) {c : α} {text : List α}
    (h : c ∈ sub pattern replace text) :
    c ∈ text ∨ ∃ after capture rest, after <:+ text ∧ (capture, rest) ∈ pattern after ∧
      c ∈ replace capture := by
  revert h
  refine sub_induction hconsuming
    (motive := fun text result ↦ c ∈ result → c ∈ text ∨ ∃ after capture rest, after <:+ text ∧
      (capture, rest) ∈ pattern after ∧ c ∈ replace capture) ?_ ?_ ?_ text
  · intro h
    exact absurd h List.not_mem_nil
  · intro d rest result ih h
    match List.mem_cons.mp h with
    | .inl heq => exact .inl (heq ▸ List.mem_cons_self)
    | .inr hmem =>
      match ih hmem with
      | .inl hrest => exact .inl (List.mem_cons_of_mem d hrest)
      | .inr ⟨after, capture, left, hsuffix, hway, hin⟩ =>
        exact .inr ⟨after, capture, left, hsuffix.trans (List.suffix_cons d rest), hway, hin⟩
  · intro d taken rest capture result hway ih h
    match List.mem_append.mp h with
    | .inl hin => exact .inr ⟨_, capture, rest, List.suffix_refl _, hway, hin⟩
    | .inr hmem =>
      match ih hmem with
      | .inl hrest => exact .inl (List.mem_append_right _ hrest)
      | .inr ⟨after, capture', left, hsuffix, hway', hin⟩ =>
        exact .inr ⟨after, capture', left, hsuffix.trans (List.suffix_append _ rest), hway', hin⟩

/-- A substitution keeps something of a kind when every replacement has something of it. -/
theorem exists_mem_sub (hconsuming : Consuming pattern) {p : α → Prop} {text : List α}
    (hreplace : ∀ after capture rest, after <:+ text → (capture, rest) ∈ pattern after →
      ∃ c ∈ replace capture, p c)
    (h : ∃ c ∈ text, p c) : ∃ c ∈ sub pattern replace text, p c := by
  revert h hreplace
  refine sub_induction hconsuming
    (motive := fun text result ↦ (∀ after capture rest, after <:+ text →
      (capture, rest) ∈ pattern after → ∃ c ∈ replace capture, p c) →
        (∃ c ∈ text, p c) → ∃ c ∈ result, p c) ?_ ?_ ?_ text
  · intro _ h
    exact h
  · intro d rest result ih hreplace ⟨c, hmem, hc⟩
    match List.mem_cons.mp hmem with
    | .inl heq => exact ⟨c, heq ▸ List.mem_cons_self, hc⟩
    | .inr hrest =>
      have ⟨found, hfound, hp⟩ := ih (fun after capture left hsuffix ↦
        hreplace after capture left (hsuffix.trans (List.suffix_cons d rest))) ⟨c, hrest, hc⟩
      exact ⟨found, List.mem_cons_of_mem d hfound, hp⟩
  · intro d taken rest capture result hway _ hreplace _
    have ⟨found, hfound, hp⟩ := hreplace _ capture rest (List.suffix_refl _) hway
    exact ⟨found, List.mem_append_left _ hfound, hp⟩

/-- A relation between neighbours survives a substitution by replacements which have it inside and
meet it at both ends whatever stands next to them. -/
theorem isChain_sub (hconsuming : Consuming pattern) {r : α → α → Prop} {text : List α}
    (hreplace : ∀ after capture rest, after <:+ text → (capture, rest) ∈ pattern after →
      (replace capture).IsChain r ∧ (∀ x, ∀ y ∈ (replace capture).head?, r x y) ∧
        (∀ x ∈ (replace capture).getLast?, ∀ y, r x y) ∧ replace capture ≠ [])
    (h : text.IsChain r) : (sub pattern replace text).IsChain r := by
  have hboth : (sub pattern replace text).IsChain r ∧
      ∀ y ∈ (sub pattern replace text).head?, y ∈ text.head? ∨ ∀ x, r x y := by
    revert h hreplace
    refine sub_induction hconsuming
      (motive := fun text result ↦ (∀ after capture rest, after <:+ text →
        (capture, rest) ∈ pattern after →
          (replace capture).IsChain r ∧ (∀ x, ∀ y ∈ (replace capture).head?, r x y) ∧
            (∀ x ∈ (replace capture).getLast?, ∀ y, r x y) ∧ replace capture ≠ []) →
        text.IsChain r → result.IsChain r ∧ ∀ y ∈ result.head?, y ∈ text.head? ∨ ∀ x, r x y)
      ?_ ?_ ?_ text
    · intro _ _
      exact ⟨.nil, fun y hy ↦ by cases hy⟩
    · intro d rest result ih hreplace hchain
      rw [List.isChain_cons] at hchain
      have ⟨hresult, hhead⟩ := ih (fun after capture left hsuffix ↦
        hreplace after capture left (hsuffix.trans (List.suffix_cons d rest))) hchain.2
      refine ⟨List.isChain_cons.mpr ⟨fun y hy ↦ ?_, hresult⟩, fun y hy ↦ .inl hy⟩
      match hhead y hy with
      | .inl hrest => exact hchain.1 y hrest
      | .inr hany => exact hany d
    · intro d taken rest capture result hway ih hreplace hchain
      have ⟨hinside, hfirst, hlast, hne⟩ := hreplace _ capture rest (List.suffix_refl _) hway
      have ⟨hresult, _⟩ := ih (fun after capture left hsuffix ↦
        hreplace after capture left (hsuffix.trans (List.suffix_append _ rest)))
        hchain.right_of_append
      refine ⟨hinside.append hresult fun x hx y _ ↦ hlast x hx y, fun y hy ↦ .inr fun x ↦ ?_⟩
      rw [List.head?_append_of_ne_nil _ hne] at hy
      exact hfirst x y hy
  exact hboth.1

/-- A text has one first character of a kind, with one part before and one behind it. -/
theorem span_unique {p : α → Prop} {front front' back back' : List α} {c c' : α}
    (hfront : ∀ d ∈ front, ¬ p d) (hfront' : ∀ d ∈ front', ¬ p d) (hc : p c) (hc' : p c')
    (h : front ++ c :: back = front' ++ c' :: back') : front = front' ∧ c = c' ∧ back = back' := by
  induction front generalizing front' with
  | nil =>
    match front' with
    | [] => exact ⟨rfl, List.cons.inj h⟩
    | d :: others => exact absurd ((List.cons.inj h).1 ▸ hc) (hfront' d List.mem_cons_self)
  | cons d others ih =>
    match front' with
    | [] => exact absurd ((List.cons.inj h).1 ▸ hc') (hfront d List.mem_cons_self)
    | d' :: others' =>
      rw [List.cons_append, List.cons_append, List.cons.injEq] at h
      have ⟨hothers, hsame⟩ := ih (fun e he ↦ hfront e (List.mem_cons_of_mem d he))
        (fun e he ↦ hfront' e (List.mem_cons_of_mem d' he)) h.2
      exact ⟨by rw [h.1, hothers], hsame⟩

/-! ## Looking back -/

/-- Every character with the one before it. -/
def withPrevious (previous : Option α) : List α → List (Option α × α)
  | [] => []
  | c :: rest => (previous, c) :: withPrevious (Option.some c) rest

@[simp] theorem map_snd_withPrevious (previous : Option α) (text : List α) :
    (withPrevious previous text).map Prod.snd = text := by
  induction text generalizing previous with
  | nil => rfl
  | cons c rest ih => rw [withPrevious, List.map_cons, ih]

/-- `\b` in front of a character: exactly one of the two sides is of the class. -/
def edge (class_ : α → Bool) : Pattern (Option α × α) Unit
  | [] => []
  | c :: rest => if c.1.any class_ != class_ c.2 then [((), c :: rest)] else []

@[simp] theorem mem_edge {class_ : α → Bool} {text rest : List (Option α × α)} {u : Unit} :
    (u, rest) ∈ edge class_ text ↔ rest = text ∧ ∃ c ∈ text.head?, c.1.any class_ ≠ class_ c.2 := by
  match text with
  | [] => simp [edge]
  | c :: others =>
    rw [edge]
    by_cases h : c.1.any class_ = class_ c.2 <;> simp [h]

end IsvValidation.Library.Pattern
