import Mathlib.Data.List.Basic
import Mathlib.Data.List.Forall2
import Mathlib.Data.List.Infix

/-!
# Backtracking patterns

A regular expression as the list of ways in which it can match the beginning of a text, in the order
in which a backtracking matcher tries them; each way comes with what it captures and with the rest
of the text. The first way is the match. Repetition ranges over single characters of a class. Texts
are lists over any type, so that the characters of a text may carry marks along.
-/

namespace IsvValidation.Library

/-- The ways to match the beginning of a text. -/
def Pattern (α β : Type) := List α → List (β × List α)

namespace Pattern

variable {α β γ : Type}

instance : Monad (Pattern α) where
  pure capture := fun text ↦ [(capture, text)]
  bind pattern next := fun text ↦ (pattern text).flatMap fun way ↦ next way.1 way.2

/-- One character of a class. -/
def one (class_ : α → Bool) : Pattern α α
  | [] => []
  | c :: rest => if class_ c then [(c, rest)] else []

/-- Any number of characters of a class, as many as possible first. -/
def many (class_ : α → Bool) : Pattern α (List α)
  | [] => [([], [])]
  | c :: rest =>
    if class_ c then (many class_ rest).map (fun way ↦ (c :: way.1, way.2)) ++ [([], c :: rest)]
    else [([], c :: rest)]

/-- At least one character of a class, as many as possible first. -/
def some (class_ : α → Bool) : Pattern α (List α) := do
  let first ← one class_
  let others ← many class_
  return first :: others

/-- At least one character of a class, as few as possible first. -/
def fewest (class_ : α → Bool) : Pattern α (List α) := fun text ↦ (some class_ text).reverse

/-- One character after the other, each of its own class. -/
def word : List (α → Bool) → Pattern α (List α)
  | [] => pure []
  | class_ :: classes => do
    let first ← one class_
    let others ← word classes
    return first :: others

/-- The first pattern, and when that leads nowhere the second. -/
def orElse (first second : Pattern α β) : Pattern α β := fun text ↦ first text ++ second text

/-- The pattern, or else nothing. -/
def optional (pattern : Pattern α β) : Pattern α (Option β) :=
  orElse (do return Option.some (← pattern)) (pure none)

/-- One of several patterns, in their order. -/
def oneOf (patterns : List (Pattern α β)) : Pattern α β := fun text ↦
  patterns.flatMap fun pattern ↦ pattern text

/-- The match at the beginning of a text. -/
def match? (pattern : Pattern α β) (text : List α) : Option (β × List α) := (pattern text).head?

/-- The pattern matches somewhere in the text. -/
def found (pattern : Pattern α β) (text : List α) : Bool :=
  text.tails.any fun rest ↦ !(pattern rest).isEmpty

/-- Replace the matches from left to right; `skip` characters belong to the match before. -/
def subFrom (pattern : Pattern α β) (replace : β → List α) (skip : ℕ) : List α → List α
  | [] => []
  | c :: rest =>
    match skip with
    | skip + 1 => subFrom pattern replace skip rest
    | 0 =>
      match match? pattern (c :: rest) with
      | none => c :: subFrom pattern replace 0 rest
      | Option.some (capture, after) =>
        replace capture ++ subFrom pattern replace (rest.length - after.length) rest

/-- The text with every match replaced; the pattern never matches nothing. -/
def sub (pattern : Pattern α β) (replace : β → List α) (text : List α) : List α :=
  subFrom pattern replace 0 text

/-! ## Which ways there are -/

@[simp] theorem mem_pure {capture b : β} {text rest : List α} :
    (b, rest) ∈ (pure capture : Pattern α β) text ↔ b = capture ∧ rest = text := by
  change (b, rest) ∈ [(capture, text)] ↔ _
  rw [List.mem_singleton, Prod.mk.injEq]

@[simp] theorem mem_bind {pattern : Pattern α β} {next : β → Pattern α γ} {c : γ}
    {text rest : List α} :
    (c, rest) ∈ (pattern >>= next) text ↔
      ∃ b middle, (b, middle) ∈ pattern text ∧ (c, rest) ∈ next b middle := by
  change (c, rest) ∈ (pattern text).flatMap _ ↔ _
  rw [List.mem_flatMap, Prod.exists]

@[simp] theorem mem_one {class_ : α → Bool} {c : α} {text rest : List α} :
    (c, rest) ∈ one class_ text ↔ text = c :: rest ∧ class_ c = true := by
  cases text with
  | nil => simp [one]
  | cons first others =>
    by_cases h : class_ first = true
    · rw [one, if_pos h, List.mem_singleton, Prod.mk.injEq, List.cons.injEq]
      constructor
      · intro heq
        exact ⟨⟨heq.1.symm, heq.2.symm⟩, heq.1 ▸ h⟩
      · intro heq
        exact ⟨heq.1.1.symm, heq.1.2.symm⟩
    · rw [one, if_neg h, List.cons.injEq]
      constructor
      · intro hmem
        simp at hmem
      · intro heq
        exact absurd (heq.1.1 ▸ heq.2) h

@[simp] theorem mem_many {class_ : α → Bool} {run text rest : List α} :
    (run, rest) ∈ many class_ text ↔ text = run ++ rest ∧ ∀ c ∈ run, class_ c = true := by
  induction text generalizing run rest with
  | nil =>
    rw [many, List.mem_singleton, Prod.mk.injEq]
    constructor
    · intro h
      simp [h.1, h.2]
    · intro h
      simpa using h.1.symm
  | cons first others ih =>
    unfold many
    by_cases h : class_ first = true
    · rw [if_pos h, List.mem_append, List.mem_map, List.mem_singleton, Prod.mk.injEq]
      constructor
      · intro hmem
        match hmem with
        | .inl ⟨(run', rest'), hway, heq⟩ =>
          rw [Prod.mk.injEq] at heq
          have hrest := ih.mp hway
          rw [← heq.1, ← heq.2, hrest.1]
          refine ⟨rfl, fun c hc ↦ ?_⟩
          match List.mem_cons.mp hc with
          | .inl heq => rwa [heq]
          | .inr hc => exact hrest.2 c hc
        | .inr heq => simp [heq.1, heq.2]
      · intro ⟨htext, hrun⟩
        match run with
        | [] => exact .inr ⟨rfl, htext.symm⟩
        | c :: run =>
          rw [List.cons_append, List.cons.injEq] at htext
          refine .inl ⟨(run, rest), ih.mpr ⟨htext.2, ?_⟩, by rw [htext.1]⟩
          exact fun d hd ↦ hrun d (List.mem_cons_of_mem c hd)
    · rw [if_neg h, List.mem_singleton, Prod.mk.injEq]
      constructor
      · intro heq
        simp [heq.1, heq.2]
      · intro ⟨htext, hrun⟩
        match run with
        | [] => exact ⟨rfl, htext.symm⟩
        | c :: run =>
          rw [List.cons_append, List.cons.injEq] at htext
          exact absurd (htext.1 ▸ hrun c List.mem_cons_self) h

@[simp] theorem mem_some {class_ : α → Bool} {run text rest : List α} :
    (run, rest) ∈ some class_ text ↔
      text = run ++ rest ∧ run ≠ [] ∧ ∀ c ∈ run, class_ c = true := by
  unfold some
  simp only [mem_bind, mem_one, mem_many, mem_pure]
  constructor
  · intro ⟨first, _, ⟨htext, hfirst⟩, others, _, ⟨hmiddle, hothers⟩, hrun, hrest⟩
    rw [htext, hmiddle, hrun, hrest]
    refine ⟨rfl, List.cons_ne_nil first others, fun c hc ↦ ?_⟩
    match List.mem_cons.mp hc with
    | .inl heq => rwa [heq]
    | .inr hc => exact hothers c hc
  · intro ⟨htext, hne, hrun⟩
    match run with
    | [] => exact absurd rfl hne
    | c :: run =>
      exact ⟨c, run ++ rest, ⟨htext, hrun c List.mem_cons_self⟩, run, rest,
        ⟨rfl, fun d hd ↦ hrun d (List.mem_cons_of_mem c hd)⟩, rfl, rfl⟩

@[simp] theorem mem_fewest {class_ : α → Bool} {run text rest : List α} :
    (run, rest) ∈ fewest class_ text ↔
      text = run ++ rest ∧ run ≠ [] ∧ ∀ c ∈ run, class_ c = true := by
  unfold fewest
  rw [List.mem_reverse, mem_some]

@[simp] theorem mem_orElse {first second : Pattern α β} {b : β} {text rest : List α} :
    (b, rest) ∈ orElse first second text ↔ (b, rest) ∈ first text ∨ (b, rest) ∈ second text :=
  List.mem_append

@[simp] theorem mem_optional {pattern : Pattern α β} {b : Option β} {text rest : List α} :
    (b, rest) ∈ optional pattern text ↔
      (∃ capture, b = Option.some capture ∧ (capture, rest) ∈ pattern text) ∨ b = none ∧ rest = text := by
  rw [optional, mem_orElse, mem_pure]
  simp only [mem_bind, mem_pure]
  constructor
  · intro h
    match h with
    | .inl ⟨capture, _, hway, hb, hrest⟩ => exact .inl ⟨capture, hb, hrest ▸ hway⟩
    | .inr h => exact .inr h
  · intro h
    match h with
    | .inl ⟨capture, hb, hway⟩ => exact .inl ⟨capture, rest, hway, hb, rfl⟩
    | .inr h => exact .inr h

theorem mem_word {classes : List (α → Bool)} {run text rest : List α} :
    (run, rest) ∈ word classes text ↔
      text = run ++ rest ∧ List.Forall₂ (fun class_ c ↦ class_ c = true) classes run := by
  induction classes generalizing run text rest with
  | nil =>
    rw [word, mem_pure, List.forall₂_nil_left_iff]
    constructor
    · intro ⟨hrun, hrest⟩
      exact ⟨by rw [hrun, hrest, List.nil_append], hrun⟩
    · intro ⟨htext, hrun⟩
      exact ⟨hrun, by rw [htext, hrun, List.nil_append]⟩
  | cons class_ classes ih =>
    rw [word]
    simp only [mem_bind, mem_one, mem_pure, ih]
    constructor
    · intro ⟨c, _, ⟨htext, hc⟩, others, _, ⟨hmiddle, hothers⟩, hrun, hrest⟩
      rw [htext, hmiddle, hrun, hrest]
      exact ⟨rfl, .cons hc hothers⟩
    · intro ⟨htext, hrun⟩
      match run, hrun with
      | c :: others, .cons hc hothers =>
        exact ⟨c, others ++ rest, ⟨htext, hc⟩, others, rest, ⟨rfl, hothers⟩, rfl, rfl⟩

@[simp] theorem mem_oneOf {patterns : List (Pattern α β)} {b : β} {text rest : List α} :
    (b, rest) ∈ oneOf patterns text ↔ ∃ pattern ∈ patterns, (b, rest) ∈ pattern text :=
  List.mem_flatMap

/-! ## The first way -/

/-- When all ways are one, it is the match. -/
theorem match?_of_unique {pattern : Pattern α β} {way : β × List α} {text : List α}
    (hmem : way ∈ pattern text) (hunique : ∀ other ∈ pattern text, other = way) :
    match? pattern text = Option.some way := by
  unfold match?
  match h : pattern text with
  | [] => rw [h] at hmem; simp at hmem
  | first :: _ =>
    rw [List.head?_cons, hunique first (h ▸ List.mem_cons_self)]

theorem match?_one_bind {class_ : α → Bool} {next : α → Pattern α γ} {c : α}
    (hc : class_ c = true) (rest : List α) :
    match? (one class_ >>= next) (c :: rest) = match? (next c) rest := by
  change ((one class_ (c :: rest)).flatMap _).head? = _
  rw [one, if_pos hc, List.flatMap_singleton]
  rfl

/-- The longest run comes first. -/
theorem head?_many {class_ : α → Bool} {run rest : List α} (hrun : ∀ c ∈ run, class_ c = true)
    (hstop : ∀ c ∈ rest.head?, class_ c = false) :
    (many class_ (run ++ rest)).head? = Option.some (run, rest) := by
  induction run with
  | nil =>
    match rest with
    | [] => rfl
    | c :: rest =>
      have hc : ¬ class_ c = true := by
        rw [hstop c rfl]
        exact Bool.false_ne_true
      rw [List.nil_append, many, if_neg hc]
      rfl
  | cons c run ih =>
    rw [List.cons_append, many, if_pos (hrun c List.mem_cons_self), List.head?_append,
      List.head?_map, ih fun d hd ↦ hrun d (List.mem_cons_of_mem c hd)]
    rfl

/-- Where a pattern can go on after its first way, this gives the match. -/
theorem match?_bind {pattern : Pattern α β} {next : β → Pattern α γ} {b : β} {text middle : List α}
    {way : γ × List α} (hfirst : match? pattern text = Option.some (b, middle))
    (hnext : match? (next b) middle = Option.some way) :
    match? (pattern >>= next) text = Option.some way := by
  unfold match? at hfirst
  change ((pattern text).flatMap _).head? = _
  match h : pattern text with
  | [] => rw [h] at hfirst; cases hfirst
  | first :: others =>
    rw [h, List.head?_cons, Option.some.injEq] at hfirst
    rw [hfirst, List.flatMap_cons, List.head?_append]
    change (match? (next b) middle).or _ = _
    rw [hnext, Option.some_or]

theorem match?_one {class_ : α → Bool} {c : α} (hc : class_ c = true) (rest : List α) :
    match? (one class_) (c :: rest) = Option.some (c, rest) := by
  rw [match?, one, if_pos hc]
  rfl

theorem match?_some {class_ : α → Bool} {run rest : List α} (hne : run ≠ [])
    (hrun : ∀ c ∈ run, class_ c = true) (hstop : ∀ c ∈ rest.head?, class_ c = false) :
    match? (some class_) (run ++ rest) = Option.some (run, rest) := by
  match run with
  | [] => exact absurd rfl hne
  | c :: run =>
    have hmany := head?_many (fun d hd ↦ hrun d (List.mem_cons_of_mem c hd)) hstop
    exact match?_bind (match?_one (hrun c List.mem_cons_self) (run ++ rest))
      (match?_bind hmany rfl)

/-- When the pattern can go on after the longest run, it does. -/
theorem match?_some_bind {class_ : α → Bool} {next : List α → Pattern α γ} {run rest : List α}
    {way : γ × List α} (hne : run ≠ []) (hrun : ∀ c ∈ run, class_ c = true)
    (hstop : ∀ c ∈ rest.head?, class_ c = false)
    (hnext : match? (next run) rest = Option.some way) :
    match? (some class_ >>= next) (run ++ rest) = Option.some way :=
  match?_bind (match?_some hne hrun hstop) hnext

theorem match?_optional_of_some {pattern : Pattern α β} {b : β} {text rest : List α}
    (h : match? pattern text = Option.some (b, rest)) :
    match? (optional pattern) text = Option.some (Option.some b, rest) := by
  have hfirst : match? (do return Option.some (← pattern)) text =
      Option.some (Option.some b, rest) := match?_bind h rfl
  unfold match? at hfirst ⊢
  rw [optional, orElse, List.head?_append, hfirst, Option.some_or]

theorem match?_optional_of_nil {pattern : Pattern α β} {text : List α} (h : pattern text = []) :
    match? (optional pattern) text = Option.some (none, text) := by
  have hnone : (do return Option.some (← pattern) : Pattern α (Option β)) text = [] := by
    change (pattern text).flatMap _ = []
    rw [h, List.flatMap_nil]
  rw [match?, optional, orElse, hnone, List.nil_append]
  rfl

theorem match?_eq_none {pattern : Pattern α β} {text : List α} :
    match? pattern text = none ↔ ∀ b rest, (b, rest) ∉ pattern text := by
  unfold match?
  rw [List.head?_eq_none_iff, List.eq_nil_iff_forall_not_mem, Prod.forall]

theorem mem_of_match? {pattern : Pattern α β} {way : β × List α} {text : List α}
    (h : match? pattern text = Option.some way) : way ∈ pattern text :=
  List.mem_of_mem_head? h

theorem found_iff {pattern : Pattern α β} {text : List α} :
    found pattern text = true ↔ ∃ before after b rest, text = before ++ after ∧
      (b, rest) ∈ pattern after := by
  unfold found
  simp only [List.any_eq_true, List.mem_tails, Bool.not_eq_true', List.isEmpty_eq_false_iff_exists_mem,
    Prod.exists]
  constructor
  · intro ⟨after, ⟨before, htext⟩, b, rest, hmem⟩
    exact ⟨before, after, b, rest, htext.symm, hmem⟩
  · intro ⟨before, after, b, rest, htext, hmem⟩
    exact ⟨after, ⟨before, htext.symm⟩, b, rest, hmem⟩

end Pattern

end IsvValidation.Library
