import IsvValidation.Host.Quoting
import IsvValidation.Library.ShellText

/-!
# Quoted words in a shell

What `shlex.quote` writes is read back by a shell as the word which was quoted, outside of quotes and
with a harmless text in front of it.
-/

namespace IsvValidation.Host.ShellQuoting

open Library.Shell Library.Shell.Reader
open Shlex (isHarmless quoteChar quoteChars)

variable {Line : Type} {dialect : Dialect} {r : Reader Line}

/-- A character which `shlex.quote` leaves alone means nothing to the shell. -/
theorem isActive_harmless {c : Char} (h : isHarmless c = true) :
    isActive false c = false ∧ c ≠ '$' ∧ c ≠ '#' ∧ c ∉ patternChars := by
  have hmeaning : ∀ d ∈ [' ', '\t', '\n', ';', '&', '|', '(', ')', '<', '>', '\'', '"', '\\', '`',
      '$', '#', '*', '?', '[', '~', '\x7b'], isHarmless d = false := by decide
  have hne : ∀ d ∈ [' ', '\t', '\n', ';', '&', '|', '(', ')', '<', '>', '\'', '"', '\\', '`',
      '$', '#', '*', '?', '[', '~', '\x7b'], c ≠ d := by
    intro d hd heq
    rw [heq, hmeaning d hd] at h
    exact Bool.false_ne_true h
  simp only [List.forall_mem_cons, ne_eq] at hne
  simp [isActive, isBlank, separates, isAngle, patternChars, hne]

/-- A word of harmless and of quoted characters is not expanded. -/
theorem fixed_of_harmless {word : Word}
    (h : ∀ piece ∈ word, piece.quoted = true ∨ ∃ c, piece.shown = .char c ∧ isHarmless c = true) :
    Fixed dialect word := by
  have hexpands : dialect.expands word.look = false := by
    apply dialect.plain
    intro c hc hmem
    have ⟨piece, hpiece, hlook⟩ := List.mem_map.mp hmem
    have ⟨hshown, hquoted⟩ := Prod.mk.inj hlook
    match h piece hpiece with
    | .inl hq => exact Bool.false_ne_true (hquoted.symm.trans hq)
    | .inr ⟨d, hd, hharmless⟩ =>
      rw [hd, Shown.char.injEq] at hshown
      exact (isActive_harmless hharmless).2.2.2 (hshown ▸ hc)
  rw [Fixed, hexpands, Bool.and_false]

/-- Harmless text goes into the word. -/
theorem step_harmless {g : Glyph Line} (hmode : r.mode = .blank ∧ r.words ≠ [] ∨ r.mode = .word)
    (h : isHarmless g.char = true) :
    r.step dialect g = { r with mode := .word, token := r.token ++ [g.piece false] } := by
  obtain ⟨hactive, hdollar, hhash, _⟩ := isActive_harmless h
  simp only [isActive, List.contains_cons, List.contains_nil, Bool.or_false, Bool.or_eq_false_iff,
    beq_eq_false_iff_ne, ne_eq, Bool.and_eq_false_iff, Bool.not_eq_false'] at hactive
  have hbare := hactive.2.resolve_left Bool.false_ne_true
  have hbegin : r.begin g = r := by
    unfold begin
    rcases hmode with ⟨hblank, hwords⟩ | hword
    · obtain ⟨first, rest, heq⟩ := List.exists_cons_of_ne_nil hwords
      rw [hblank, heq]
    · rw [hword]
  have hstep : r.step dialect g = r.bare dialect g := by
    unfold step
    rcases hmode with ⟨hblank, _⟩ | hword
    · rw [hblank]
    · rw [hword]
  rw [hstep]
  simp only [bare, hbare, hbegin, hhash, Bool.false_eq_true, if_false, beq_iff_eq,
    Bool.and_eq_true, false_and]
  unfold enter
  split
  · next heq => exact absurd heq hactive.1.2.1
  · next heq => exact absurd heq hbare.2
  · next heq => exact absurd heq hactive.1.1
  · next heq => exact absurd heq hdollar
  · next heq => exact absurd heq hactive.1.2.2
  · rfl

theorem read_harmless {text : List (Glyph Line)} (hmode : r.mode = .word)
    (h : ∀ g ∈ text, isHarmless g.char = true) :
    r.read dialect text = { r with token := r.token ++ text.map (Glyph.piece false) } := by
  induction text generalizing r with
  | nil => simp
  | cons g text ih =>
    rw [read_cons, step_harmless (.inr hmode) (h g List.mem_cons_self),
      ih rfl fun other hother ↦ h other (List.mem_cons_of_mem g hother)]
    simp [hmode]

/-- Between the outer quotes every character of the word is read as it is. -/
theorem read_quoteChar (hmode : r.mode = .single) (word : List Char) :
    r.read dialect (value (word.flatMap quoteChar)) =
      { r with token := r.token ++ word.map fun c ↦ ⟨.char c, true, true⟩ } := by
  induction word generalizing r with
  | nil => simp [value]
  | cons c word ih =>
    have hc : r.read dialect (value (quoteChar c)) =
        { r with token := r.token ++ [⟨.char c, true, true⟩] } := by
      have ⟨mode, token, target, line, words, commands⟩ := r
      simp only at hmode
      rw [hmode, quoteChar]
      split_ifs with hquote
      · rw [hquote]
        rfl
      · simp [value, step, hquote, push, Glyph.isValue]
    have hsplit : (value ((c :: word).flatMap quoteChar) : List (Glyph Line)) =
        value (quoteChar c) ++ value (word.flatMap quoteChar) := by
      rw [value, List.flatMap_cons, List.map_append]
      rfl
    have hrest := ih (r := { r with token := r.token ++ [⟨.char c, true, true⟩] }) hmode
    rw [hsplit, read_append, hc, hrest]
    simp

theorem step_apostrophe {origin : Origin Line}
    (hmode : r.mode = .blank ∧ r.words ≠ [] ∨ r.mode = .word) :
    r.step dialect ⟨'\'', origin⟩ = { r with mode := .single } := by
  have ⟨mode, token, target, line, words, commands⟩ := r
  match hmode with
  | .inl ⟨hblank, hwords⟩ =>
    have ⟨first, rest, heq⟩ := List.exists_cons_of_ne_nil hwords
    simp only at hblank heq
    rw [hblank, heq]
    rfl
  | .inr hword =>
    simp only at hword
    rw [hword]
    rfl

/-- Behind a harmless text, the quotes enclose the rest of the word. -/
theorem appends_enclosed {front : List (Glyph Line)}
    (hfront : ∀ g ∈ front, isHarmless g.char = true) (word : List Char) :
    Appends dialect (front ++ value ('\'' :: word.flatMap quoteChar ++ ['\'']))
      [front.map (Glyph.piece false) ++ word.map fun c ↦ ⟨.char c, true, true⟩] := by
  intro r h
  have hbegun : ∃ mode, (mode = .blank ∧ r.words ≠ [] ∨ mode = .word) ∧
      r.read dialect front =
        { r with mode := mode, token := front.map (Glyph.piece false) } := by
    match front with
    | [] =>
      refine ⟨.blank, .inl ⟨rfl, h.words⟩, ?_⟩
      rw [read_nil, List.map_nil, ← h.blank, ← h.token]
    | g :: rest =>
      refine ⟨.word, .inr rfl, ?_⟩
      rw [read_cons, step_harmless (.inl ⟨h.blank, h.words⟩) (hfront g List.mem_cons_self),
        read_harmless rfl fun other hother ↦ hfront other (List.mem_cons_of_mem g hother), h.token]
      simp
  have ⟨mode, hmode, hread⟩ := hbegun
  have hquoted : (value ('\'' :: word.flatMap quoteChar ++ ['\'']) : List (Glyph Line)) =
      ⟨'\'', .value⟩ :: (value (word.flatMap quoteChar) ++ [⟨'\'', .value⟩]) := by
    simp [value]
  have hword : r.read dialect (front ++ value ('\'' :: word.flatMap quoteChar ++ ['\''])) =
      { r with
        mode := .word
        token := front.map (Glyph.piece false) ++ word.map fun c ↦ ⟨.char c, true, true⟩ } := by
    rw [hquoted, read_append, hread, read_cons, step_apostrophe hmode, read_append,
      read_quoteChar rfl]
    rfl
  have hfixed : Fixed dialect
      (front.map (Glyph.piece false) ++ word.map fun c ↦ ⟨.char c, true, true⟩) := by
    apply fixed_of_harmless
    intro piece hpiece
    match List.mem_append.mp hpiece with
    | .inl hown =>
      have ⟨g, hg, heq⟩ := List.mem_map.mp hown
      exact .inr ⟨g.char, heq ▸ rfl, hfront g hg⟩
    | .inr henclosed =>
      have ⟨c, _, heq⟩ := List.mem_map.mp henclosed
      exact .inl (heq ▸ rfl)
  have hspace := step_space (r := { r with mode := .word, token := _ }) rfl h.target hfixed
  rw [read_append, hword, read_space, hspace, Reader.append]
  change ({ r with mode := .blank, token := [], words := _ } : Reader Line) = _
  rw [← h.blank, ← h.token]
  rfl

theorem literal_of_harmless {text : List Char} (h : ∀ c ∈ text, isHarmless c = true) :
    literal false text = true := by
  induction text with
  | nil => rfl
  | cons c text ih =>
    have ⟨hactive, hdollar, _⟩ := isActive_harmless (h c List.mem_cons_self)
    rw [literal, hactive, ih fun d hd ↦ h d (List.mem_cons_of_mem c hd)]
    simp [hdollar]

/-- A harmless text is a word by itself. -/
theorem appends_harmless {text : List (Glyph Line)} (hne : text ≠ [])
    (h : ∀ g ∈ text, isHarmless g.char = true) :
    Appends dialect text [text.map (Glyph.piece false)] := by
  apply appends_literal hne
  · exact fun g hg ↦ (isActive_harmless (h g (List.mem_of_mem_head? hg))).2.2.1
  · apply literal_of_harmless
    intro c hc
    have ⟨g, hg, heq⟩ := List.mem_map.mp hc
    exact heq ▸ h g hg
  · apply fixed_of_harmless
    intro piece hpiece
    have ⟨g, hg, heq⟩ := List.mem_map.mp hpiece
    exact .inr ⟨g.char, heq ▸ rfl, h g hg⟩

/-- A quoted word behind a harmless text is read as one word. -/
theorem appends_quoted {front : List (Glyph Line)}
    (hfront : ∀ g ∈ front, isHarmless g.char = true) (word : String) :
    ∃ piece, Appends dialect (front ++ value (Shlex.quote word).toList) [piece] ∧
      Word.shown piece = (front.map Glyph.char ++ word.toList).map Shown.char := by
  have henclosed := @appends_enclosed Line dialect front hfront word.toList
  have hshown : Word.shown (front.map (Glyph.piece false) ++
      word.toList.map fun c ↦ ⟨.char c, true, true⟩) =
        (front.map Glyph.char ++ word.toList).map Shown.char := by
    simp [Word.shown, Glyph.piece, Function.comp_def]
  rw [Shlex.quote, String.toList_ofList, quoteChars]
  split_ifs with hempty hharmless
  · rw [List.isEmpty_iff.mp hempty] at henclosed hshown
    rw [List.isEmpty_iff.mp hempty]
    exact ⟨_, henclosed, hshown⟩
  · refine ⟨_, appends_harmless ?_ ?_, ?_⟩
    · intro hnil
      have hword := (List.append_eq_nil_iff.mp hnil).2
      rw [value, List.map_eq_nil_iff] at hword
      rw [hword] at hempty
      exact hempty rfl
    · intro g hg
      rcases List.mem_append.mp hg with hown | hvalue
      · exact hfront g hown
      · obtain ⟨c, hc, heq⟩ := List.mem_map.mp hvalue
        exact heq ▸ List.all_eq_true.mp hharmless c hc
    · simp [Word.shown, Glyph.piece, value, Function.comp_def]
  · exact ⟨_, henclosed, hshown⟩

end IsvValidation.Host.ShellQuoting
