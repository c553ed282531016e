import IsvValidation.Host.Text

/-!
# Words and quotes of a shell

`shlex.quote` and `shlex.join`: a word of harmless characters stays as it is, any other word is put
between single quotes, and a single quote in it between double quotes. In the other direction, a
text which starts with plain words splits into these words and the words of the rest.
-/

namespace IsvValidation.Host.Shlex

/-! ## Quoting -/

/-- The characters which `shlex.quote` leaves alone: word characters in ASCII and `@%+=:,./` and the
dash. -/
def isHarmless (c : Char) : Bool :=
  c.isAlphanum || ['_', '@', '%', '+', '=', ':', ',', '.', '/', '-'].contains c

/-- What stands between the outer quotes for one character of a word. -/
def quoteChar (c : Char) : List Char := if c = '\'' then ['\'', '"', '\'', '"', '\''] else [c]

/-- `shlex.quote`, on the characters of the word. -/
def quoteChars (word : List Char) : List Char :=
  if word.isEmpty then ['\'', '\'']
  else if word.all isHarmless then word
  else '\'' :: word.flatMap quoteChar ++ ['\'']

/-- `shlex.quote`. -/
def quote (word : String) : String := .ofList (quoteChars word.toList)

/-- `shlex.join`. -/
def join (words : List String) : String := " ".intercalate (words.map quote)

example : join ["a b", "it's", "x=1", ""] = "'a b' 'it'\"'\"'s' x=1 ''" := rfl

/-! ## Splitting after a plain word -/

/-- No blank, quote or backslash. -/
def isLetter (c : Char) : Bool := isPlain c && !isBlank c

/-- The words which are complete stand in front of what the lexer adds. -/
theorem step_words (done : List String) (lexer : Lexer) (c : Char) :
    step { lexer with words := done ++ lexer.words } c =
      { step lexer c with words := done ++ (step lexer c).words } := by
  unfold step emit
  cases lexer.mode with
  | blank => split_ifs <;> simp
  | word => split_ifs <;> simp
  | quote mark =>
    simp only
    split_ifs <;> rfl
  | escape back => cases back <;> rfl

theorem foldl_step_words (done : List String) (chars : List Char) (lexer : Lexer) :
    chars.foldl step { lexer with words := done ++ lexer.words } =
      { chars.foldl step lexer with words := done ++ (chars.foldl step lexer).words } := by
  induction chars generalizing lexer with
  | nil => rfl
  | cons c rest ih => rw [List.foldl_cons, step_words, ih, List.foldl_cons]

/-- A letter goes on with the word. -/
theorem step_letter {lexer : Lexer} {c : Char} (h : isLetter c = true)
    (hmode : lexer.mode = .blank ∨ lexer.mode = .word) :
    step lexer c = { lexer with mode := .word, token := lexer.token ++ [c] } := by
  simp only [isLetter, isPlain, Bool.and_eq_true, Bool.not_eq_true', bne_iff_ne, ne_eq] at h
  unfold step
  rcases hmode with hblank | hword
  · simp [hblank, h]
  · simp [hword, h]

theorem foldl_step_letters {word : List Char} (h : ∀ c ∈ word, isLetter c = true)
    {lexer : Lexer} (hmode : lexer.mode = .word) :
    word.foldl step lexer = { lexer with token := lexer.token ++ word } := by
  induction word generalizing lexer with
  | nil => simp
  | cons c rest ih =>
    rw [List.foldl_cons, step_letter (h c List.mem_cons_self) (Or.inr hmode),
      ih (fun d hd ↦ h d (List.mem_cons_of_mem c hd)) rfl, List.append_assoc, List.singleton_append]
    simp [hmode]

/-- A text which starts with a plain word and a blank splits into this word and those of the
rest. -/
theorem split_letters {word : List Char} (hne : word ≠ []) (h : ∀ c ∈ word, isLetter c = true)
    (rest : List Char) :
    split (.ofList (word ++ ' ' :: rest)) =
      (split (.ofList rest)).map fun words ↦ .ofList word :: words := by
  have hword : (word ++ ' ' :: rest).foldl step {} =
      { rest.foldl step {} with words := .ofList word :: (rest.foldl step {}).words } := by
    match word, hne with
    | c :: letters, _ =>
      have hfirst : step {} c = { mode := .word, token := [c] } :=
        step_letter (h c List.mem_cons_self) (Or.inl rfl)
      rw [List.foldl_append, List.foldl_cons, List.foldl_cons, hfirst,
        foldl_step_letters (fun d hd ↦ h d (List.mem_cons_of_mem c hd)) rfl]
      exact foldl_step_words [.ofList (c :: letters)] rest {}
  unfold split
  rw [String.toList_ofList, String.toList_ofList, hword]
  simp only
  cases (rest.foldl step {}).mode with
  | quote mark => rfl
  | escape back => rfl
  | blank =>
    unfold emit
    split_ifs <;> simp [Except.map]
  | word =>
    unfold emit
    split_ifs <;> simp [Except.map]

end IsvValidation.Host.Shlex
