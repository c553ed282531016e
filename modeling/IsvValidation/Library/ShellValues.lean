import IsvValidation.Library.ShellText

/-!
# Values in a script

What a pasted value can do to the reader of a script. A value cannot end the command it stands in
without getting the reader lost, so behind it the reader is in the same command. Outside of quotes, a
value which is not literal never comes out as the word it was: either the word ends too early, or a
quoting character is lost from it and the text behind it becomes part of the word.
-/

namespace IsvValidation.Library.Shell.Reader

variable {Line : Type} {dialect : Dialect} {r : Reader Line} {g : Glyph Line}

/-! ## Within a command -/

/-- Modes in which values are read without being expanded. -/
def isWithin : Mode → Bool
  | .blank | .word | .single | .double | .escape _ | .doubleEscape _ | .comment => true
  | .dollar _ value => value
  | _ => false

/-- The reader is within a command of a line. -/
structure Within (line : Option Line) (commands : List (Command Line)) (r : Reader Line) : Prop where
  mode : isWithin r.mode = true
  target : r.target = false
  words : r.words ≠ []
  line : r.line = line
  commands : r.commands = commands

/-- A value, or a character of the script's own which begins nothing. -/
def isCalm (g : Glyph Line) : Bool :=
  g.isValue ||
    (!separates g.char && !isAngle g.char && g.char != '$' && g.char != '`')

section Within

variable {line : Option Line} {commands : List (Command Line)}

theorem Within.withMode (h : r.Within line commands) {mode : Mode} (hmode : isWithin mode = true) :
    ({ r with mode := mode } : Reader Line).Within line commands :=
  { h with mode := hmode }

theorem Within.push (h : r.Within line commands) {mode : Mode} (hmode : isWithin mode = true)
    (piece : Piece) : (r.push mode piece).Within line commands :=
  { h with mode := hmode }

theorem Within.finish (h : r.Within line commands) :
    (r.finish dialect).Within line commands ∨ (r.finish dialect).mode = .lost := by
  unfold Reader.finish
  split
  · split_ifs with hlost htarget
    · exact .inr rfl
    · exact .inl { h with mode := rfl, target := rfl }
    · exact .inl
        { h with mode := rfl, words := List.append_ne_nil_of_left_ne_nil h.words [r.token] }
  · exact .inl h

theorem Within.begin (h : r.Within line commands) : r.begin g = r := by
  have ⟨first, rest, hwords⟩ := List.exists_cons_of_ne_nil h.words
  unfold Reader.begin
  rw [hwords]
  split
  · next heq => exact nomatch heq
  · rfl

theorem Within.bare (h : r.Within line commands) (hg : isCalm g = true) :
    (r.bare dialect g).Within line commands ∨ (r.bare dialect g).mode = .lost := by
  unfold Reader.bare
  rw [h.begin]
  by_cases hvalue : g.isValue = true
  · split_ifs
    · exact h.finish
    · exact .inr rfl
    · exact .inr rfl
    · exact .inl (h.withMode rfl)
    · unfold enter
      rw [hvalue]
      split
      · exact .inl (h.withMode rfl)
      · exact .inl (h.withMode rfl)
      · exact .inl (h.withMode rfl)
      · exact .inl (h.withMode rfl)
      · exact .inr rfl
      · exact .inl (h.push rfl _)
  · rw [Bool.not_eq_true] at hvalue
    simp only [isCalm, hvalue, Bool.false_or, Bool.and_eq_true, Bool.not_eq_true', bne_iff_ne,
      ne_eq] at hg
    simp only [hg, Bool.false_eq_true, if_false]
    split_ifs
    · exact h.finish
    · exact .inl (h.withMode rfl)
    · unfold enter
      split
      · exact .inl (h.withMode rfl)
      · exact .inl (h.withMode rfl)
      · exact .inl (h.withMode rfl)
      · next heq => exact absurd heq hg.1.2
      · exact .inr rfl
      · exact .inl (h.push rfl _)

theorem Within.between (h : r.Within line commands) (hg : isCalm g = true) :
    (r.between g).Within line commands ∨ (r.between g).mode = .lost := by
  unfold Reader.between
  split
  · exact .inl (h.withMode rfl)
  · exact .inl (h.withMode rfl)
  · next heq =>
    have hvalue : g.isValue = true := by
      simpa [isCalm, heq] using hg
    rw [hvalue]
    exact .inl (h.withMode rfl)
  · exact .inr rfl
  · exact .inl (h.push rfl _)

/-- Values and calm characters stay within the command, or the reader is lost. -/
theorem step_within (h : r.Within line commands) (hg : isCalm g = true) :
    (r.step dialect g).Within line commands ∨ (r.step dialect g).mode = .lost := by
  have hmode := h.mode
  unfold step
  split
  · exact h.bare hg
  · exact h.bare hg
  · split_ifs
    · exact .inl (h.withMode rfl)
    · exact .inl (h.push rfl _)
  · exact h.between hg
  · next inWord _ =>
    split_ifs
    · exact .inl (h.withMode rfl)
    · exact .inl (h.withMode rfl)
    · exact .inl (h.push rfl _)
  · split_ifs
    · exact .inl (h.push rfl _)
    · exact .inl (h.withMode rfl)
    · exact .inl ((h.push rfl _).push rfl _)
  · next quoted value heq =>
    rw [heq] at hmode
    have hvalue : value = true := hmode
    rw [hvalue, Bool.true_or, if_pos rfl]
    split_ifs
    · exact .inr rfl
    · cases quoted with
      | true => exact (h.push rfl _).between hg
      | false => exact (h.push rfl _).bare hg
  · next heq =>
    rw [heq] at hmode
    exact nomatch hmode
  · next heq =>
    rw [heq] at hmode
    exact nomatch hmode
  · split_ifs with hnewline hvalue
    · exact .inr rfl
    · rw [beq_iff_eq] at hnewline
      simp [isCalm, hnewline, hvalue, separates] at hg
    · exact .inl h
  · next heq =>
    rw [heq] at hmode
    exact nomatch hmode
  · next heq => exact .inr heq

theorem read_within {text : List (Glyph Line)} (h : r.Within line commands)
    (htext : ∀ g ∈ text, isCalm g = true) :
    (r.read dialect text).Within line commands ∨ (r.read dialect text).mode = .lost := by
  induction text generalizing r with
  | nil => exact .inl h
  | cons g text ih =>
    have hstep : (r.step dialect g).Within line commands ∨ (r.step dialect g).mode = .lost :=
      step_within h (htext g List.mem_cons_self)
    match hstep with
    | .inl hwithin => exact ih hwithin fun other hother ↦ htext other (List.mem_cons_of_mem g hother)
    | .inr hlost =>
      rw [read_cons, read_lost hlost]
      exact .inr hlost

theorem step_quote_mode (h : isWithin r.mode = true) :
    (r.step dialect ⟨'"', .own⟩).mode ∈ [.word, .single, .double, .comment, .lost] := by
  have hmode : (r.step dialect ⟨'"', .own⟩).mode = nextMode r.mode '"' ∨
      (r.step dialect ⟨'"', .own⟩).mode = .lost := step_mode rfl
  rcases hmode with hnext | hlost
  · rw [hnext]
    cases hr : r.mode with
    | blank | word | single | double | escape _ | doubleEscape _ | comment =>
      simp [nextMode, bareMode, betweenMode, isBlank, separates, isAngle]
    | dollar quoted value => cases quoted <;> cases value <;> decide
    | name _ _ | braced _ _ | angle | lost =>
      rw [hr] at h
      cases h
  · simp [hlost]

/-- Behind a quote and a newline, the command is complete, or the reader is between quotes. -/
theorem read_endLine (h : r.Within line commands) :
    (∃ words, r.read dialect (own "\"\n") = fresh (commands ++ [⟨line, words⟩])) ∨
      ((r.read dialect (own "\"\n")).mode = .single ∨
          (r.read dialect (own "\"\n")).mode = .double) ∧
        (r.read dialect (own "\"\n")).Within line commands ∨
      (r.read dialect (own "\"\n")).mode = .lost := by
  have hread : r.read dialect (own "\"\n") =
      (r.step dialect ⟨'"', .own⟩).step dialect ⟨'\n', .own⟩ := rfl
  have hquote : (r.step dialect ⟨'"', .own⟩).Within line commands ∨
      (r.step dialect ⟨'"', .own⟩).mode = .lost := step_within h rfl
  have hmodes : (r.step dialect ⟨'"', .own⟩).mode ∈ [.word, .single, .double, .comment, .lost] :=
    step_quote_mode h.mode
  rw [hread]
  generalize r.step dialect ⟨'"', .own⟩ = closed at hquote hmodes
  match hquote with
  | .inr hlost =>
    rw [step_lost hlost]
    exact .inr (.inr hlost)
  | .inl hwithin =>
    have hend : ∀ r : Reader Line, r.Within line commands →
        (∃ words, r.endCommand dialect = fresh (commands ++ [⟨line, words⟩])) ∨
          (r.endCommand dialect).mode = .lost := by
      intro r hr
      have hfinish : (r.finish dialect).Within line commands ∨
          (r.finish dialect).mode = .lost := hr.finish
      unfold endCommand close
      match hfinish with
      | .inr hlost => exact .inr (by rw [hlost]; exact hlost)
      | .inl hdone =>
        split
        · next hlost => exact .inr hlost
        · exact .inl ⟨_, by rw [hdone.line, hdone.commands]⟩
    match hmode : closed.mode with
    | .single =>
      refine .inr (.inl ?_)
      rw [step, hmode]
      exact ⟨.inl rfl, hwithin.push rfl _⟩
    | .double =>
      refine .inr (.inl ?_)
      rw [step, hmode]
      exact ⟨.inr rfl, hwithin.push rfl _⟩
    | .word =>
      rw [step, hmode]
      exact (hend closed hwithin).imp_right .inr
    | .comment =>
      rw [step, hmode]
      exact (hend { closed with mode := .blank } (hwithin.withMode rfl)).imp_right .inr
    | .lost =>
      rw [step_lost hmode]
      exact .inr (.inr hmode)
    | .blank | .escape _ | .doubleEscape _ | .dollar _ _ | .name _ _ | .braced _ _ | .angle =>
      simp [hmode] at hmodes

variable {text : List (Glyph Line)}

/-- Behind a text, a quote and a newline leave nothing but complete commands. -/
def EndsLine (dialect : Dialect) (r : Reader Line) (text : List (Glyph Line)) : Prop :=
  ∃ commands, r.read dialect (text ++ own "\"\n") = fresh commands

/-- A text between double quotes ends with its line, stays between quotes, or is expanded. -/
theorem Within.endsLine_or (h : r.Within line commands) (htext : ∀ g ∈ text, isCalm g = true) :
    r.EndsLine dialect text ∨
      ((r.read dialect (text ++ own "\"\n")).mode = .single ∨
          (r.read dialect (text ++ own "\"\n")).mode = .double) ∨
      (r.read dialect (text ++ own "\"\n")).mode = .lost := by
  have hread : (r.read dialect text).Within line commands ∨ (r.read dialect text).mode = .lost :=
    read_within h htext
  unfold EndsLine
  rw [read_append]
  match hread with
  | .inr hlost =>
    rw [read_lost hlost]
    exact .inr (.inr hlost)
  | .inl hwithin =>
    have hend := @read_endLine Line dialect _ _ _ hwithin
    exact hend.imp (fun ⟨words, heq⟩ ↦ ⟨_, heq⟩) (Or.imp_left And.left)

/-- The line is then a command of its own. -/
theorem EndsLine.command (hends : r.EndsLine dialect text) (h : r.Within line commands)
    (htext : ∀ g ∈ text, isCalm g = true) :
    ∃ words, r.read dialect (text ++ own "\"\n") = fresh (commands ++ [⟨line, words⟩]) := by
  have ⟨others, hfresh⟩ := hends
  have hread : (r.read dialect text).Within line commands ∨ (r.read dialect text).mode = .lost :=
    read_within h htext
  rw [read_append] at hfresh ⊢
  match hread with
  | .inr hlost =>
    rw [read_lost hlost] at hfresh
    rw [hfresh] at hlost
    exact nomatch hlost
  | .inl hwithin =>
    have hend := @read_endLine Line dialect _ _ _ hwithin
    rw [hfresh] at hend
    match hend with
    | .inl ⟨words, heq⟩ => exact ⟨words, hfresh.trans heq⟩
    | .inr (.inl ⟨hquoted, _⟩) => exact nomatch hquoted
    | .inr (.inr hlost) => exact nomatch hlost

end Within

/-! ## Words which differ from what they should be -/

/-- Characters which quoting takes away. -/
def isQuoting (c : Char) : Bool := ['\'', '"', '\\', '\n'].contains c

/-- How many characters of a word are kept by every kind of quoting. -/
def weight (shown : List Shown) : ℕ :=
  shown.countP fun part ↦
    match part with
    | .char c => !isQuoting c
    | .parameter _ => false

theorem weight_append (first second : List Shown) :
    weight (first ++ second) = weight first + weight second :=
  List.countP_append

theorem weight_quoting {c : Char} (hc : isQuoting c = true) : weight [.char c] = 0 := by
  simp [weight, hc]

/-- A word of the commands of a line is there, and differs. -/
structure Differs (line : Line) (place : ℕ) (shown : List Shown) (r : Reader Line) : Prop where
  done : ∀ command ∈ r.commands, command.line = some line →
    (command.words.map Word.shown)[place]? ≠ some shown
  current : r.line = some line →
    place < r.words.length ∧ (r.words.map Word.shown)[place]? ≠ some shown

/-- The reader is at a place of a line's command, where the word which is wanted is about to come. -/
structure Placed (line : Line) (place : ℕ) (shown : List Shown) (r : Reader Line) : Prop where
  done : ∀ command ∈ r.commands, command.line = some line →
    (command.words.map Word.shown)[place]? ≠ some shown
  length : r.words.length = place
  words : r.words ≠ []
  target : r.target = false

/-- The word which is being read there has got more characters than it should. -/
structure Swollen (line : Line) (place : ℕ) (shown : List Shown) (r : Reader Line) : Prop
    extends Placed line place shown r where
  heavy : weight shown < weight r.token.shown
  number : isNumber r.token = false

/-- Modes in the middle of a word. -/
def isInWord : Mode → Bool
  | .blank | .comment | .angle | .escape false => false
  | _ => true

section Differs

variable {line : Line} {place : ℕ} {shown : List Shown}

theorem Differs.aim (h : r.Differs line place shown) : r.aim.Differs line place shown := by
  unfold Reader.aim
  split
  · exact h
  · exact ⟨h.done, h.current⟩

theorem Differs.close (h : r.Differs line place shown) : r.close.Differs line place shown := by
  unfold Reader.close
  split
  · exact h
  · refine ⟨fun command hcommand ↦ ?_, fun hline ↦ (nomatch hline)⟩
    match List.mem_append.mp hcommand with
    | .inl hearlier => exact h.done command hearlier
    | .inr hlast =>
      rw [List.mem_singleton.mp hlast]
      exact fun hline ↦ (h.current hline).2

/-- Words which are complete do not change. -/
theorem step_differs (hg : g.line? ≠ some line) (h : r.Differs line place shown) :
    (r.step dialect g).Differs line place shown := by
  refine step_rule ?_ ?_ ?_ ?_ ?_ ?_ ?_ h
  · exact fun _ _ h ↦ ⟨h.done, h.current⟩
  · exact fun _ _ _ h ↦ ⟨h.done, h.current⟩
  · intro r h
    unfold finish
    split
    · split_ifs
      · exact ⟨h.done, h.current⟩
      · exact ⟨h.done, h.current⟩
      · refine ⟨h.done, fun hline ↦ ?_⟩
        have ⟨hlt, hne⟩ := h.current hline
        constructor
        · rw [List.length_append]
          omega
        · rw [List.map_append, List.getElem?_append_left (by rw [List.length_map]; exact hlt)]
          exact hne
    · exact h
  · exact fun _ h ↦ ⟨h.done, h.current⟩
  · exact fun _ h ↦ h.aim
  · exact fun _ h ↦ h.close
  · intro r h
    unfold begin
    split
    · exact ⟨h.done, fun hline ↦ absurd hline hg⟩
    · exact h

theorem Placed.withMode (h : r.Placed line place shown) (mode : Mode) :
    ({ r with mode := mode } : Reader Line).Placed line place shown :=
  ⟨h.done, h.length, h.words, h.target⟩

theorem Placed.push (h : r.Placed line place shown) (mode : Mode) (piece : Piece) :
    (r.push mode piece).Placed line place shown :=
  ⟨h.done, h.length, h.words, h.target⟩

/-- The end of a word which is not the one that is wanted. -/
theorem Placed.finish (h : r.Placed line place shown) (hmode : r.mode = .word)
    (hne : Word.shown r.token ≠ shown) :
    (r.finish dialect).Differs line place shown ∨ r.finish dialect = r.lose := by
  unfold Reader.finish
  rw [hmode]
  simp only
  split_ifs with hlost htarget
  · exact .inr rfl
  · rw [h.target] at htarget
    exact absurd htarget Bool.false_ne_true
  · refine .inl ⟨h.done, fun _ ↦ ⟨?_, ?_⟩⟩
    · rw [List.length_append, h.length]
      exact Nat.lt_succ_self place
    · rw [List.map_append,
        List.getElem?_append_right (Nat.le_of_eq (by rw [List.length_map, h.length])),
        List.length_map, h.length, Nat.sub_self]
      exact fun heq ↦ hne (Option.some.inj heq)

theorem Swollen.withMode (h : r.Swollen line place shown) (mode : Mode) :
    ({ r with mode := mode } : Reader Line).Swollen line place shown :=
  ⟨h.toPlaced.withMode mode, h.heavy, h.number⟩

theorem Swollen.push (h : r.Swollen line place shown) (mode : Mode) (piece : Piece) :
    (r.push mode piece).Swollen line place shown where
  toPlaced := h.toPlaced.push mode piece
  heavy := by
    change weight shown < weight (Word.shown (r.token ++ [piece]))
    rw [Word.shown, List.map_append, weight_append]
    exact Nat.lt_add_right _ h.heavy
  number := by
    change isNumber (r.token ++ [piece]) = false
    rw [isNumber, List.all_append, Bool.and_eq_false_iff]
    exact .inl h.number

theorem Swollen.finish (h : r.Swollen line place shown) (hmode : r.mode = .word) :
    (r.finish dialect).Differs line place shown ∨
      (r.finish dialect).Swollen line place shown ∧ (r.finish dialect).mode = .lost := by
  have hne : Word.shown r.token ≠ shown := by
    intro heq
    have hheavy := h.heavy
    rw [heq] at hheavy
    exact absurd hheavy (Nat.lt_irrefl _)
  have hfinish : (r.finish dialect).Differs line place shown ∨ r.finish dialect = r.lose :=
    h.toPlaced.finish hmode hne
  match hfinish with
  | .inl hdiffers => exact .inl hdiffers
  | .inr hlost =>
    rw [hlost]
    exact .inr ⟨h.withMode .lost, rfl⟩

/-- A swollen word goes on, or ends as another word than it should be. -/
theorem step_swollen (h : r.Swollen line place shown) (hmode : isInWord r.mode = true) :
    (r.step dialect g).Differs line place shown ∨
      (r.step dialect g).Swollen line place shown ∧ isInWord (r.step dialect g).mode = true := by
  have hbare : ∀ r : Reader Line, r.Swollen line place shown → r.mode = .word →
      (r.bare dialect g).Differs line place shown ∨
        (r.bare dialect g).Swollen line place shown ∧ isInWord (r.bare dialect g).mode = true := by
    intro r h hword
    have hfinish : (r.finish dialect).Differs line place shown ∨
        (r.finish dialect).Swollen line place shown ∧ (r.finish dialect).mode = .lost :=
      h.finish hword
    have hbegin : r.begin g = r := by
      unfold begin
      rw [hword]
    unfold bare
    rw [hbegin]
    split_ifs with _ _ hvalue
    · exact hfinish.imp_right fun ⟨hswollen, hlost⟩ ↦ ⟨hswollen, by rw [hlost]; rfl⟩
    · exact .inr ⟨h.withMode .lost, rfl⟩
    · unfold endCommand
      match hfinish with
      | .inl hdiffers => exact .inl hdiffers.close
      | .inr ⟨hswollen, hlost⟩ =>
        unfold close
        rw [hlost]
        exact .inr ⟨hswollen, by rw [hlost]; rfl⟩
    · exact .inr ⟨h.withMode .lost, rfl⟩
    · unfold redirect finishNumber
      rw [hword]
      simp only
      rw [h.number, if_neg Bool.false_ne_true]
      match hfinish with
      | .inl hdiffers => exact .inl hdiffers.aim
      | .inr ⟨hswollen, hlost⟩ =>
        unfold aim
        rw [hlost]
        exact .inr ⟨hswollen, by rw [hlost]; rfl⟩
    · next hcomment =>
      rw [hword] at hcomment
      simp at hcomment
    · unfold enter
      rw [hword]
      split
      · exact .inr ⟨h.withMode _, rfl⟩
      · exact .inr ⟨h.withMode _, rfl⟩
      · exact .inr ⟨h.withMode _, rfl⟩
      · exact .inr ⟨h.withMode _, rfl⟩
      · exact .inr ⟨h.withMode .lost, rfl⟩
      · exact .inr ⟨h.push _ _, rfl⟩
  have hbetween : ∀ r : Reader Line, r.Swollen line place shown →
      (r.between g).Swollen line place shown ∧ isInWord (r.between g).mode = true := by
    intro r h
    unfold between
    split
    · exact ⟨h.withMode _, rfl⟩
    · exact ⟨h.withMode _, rfl⟩
    · exact ⟨h.withMode _, rfl⟩
    · exact ⟨h.withMode .lost, rfl⟩
    · exact ⟨h.push _ _, rfl⟩
  have hcontext : ∀ quoted, isInWord (context quoted) = true := by decide
  have hresume : ∀ quoted piece, (r.resume dialect g quoted piece).Differs line place shown ∨
      (r.resume dialect g quoted piece).Swollen line place shown ∧
        isInWord (r.resume dialect g quoted piece).mode = true := by
    intro quoted piece
    cases quoted with
    | true => exact .inr (hbetween _ (h.push _ piece))
    | false => exact hbare _ (h.push _ piece) rfl
  unfold step
  split
  · next hblank =>
    rw [hblank] at hmode
    exact nomatch hmode
  · next hword => exact hbare r h hword
  · split_ifs
    · exact .inr ⟨h.withMode _, rfl⟩
    · exact .inr ⟨h.push _ _, rfl⟩
  · exact .inr (hbetween r h)
  · next inWord hescape =>
    rw [hescape] at hmode
    cases inWord with
    | false => exact nomatch hmode
    | true =>
      by_cases hnewline : (g.char == '\n') = true
      · rw [if_pos hnewline]
        exact .inr ⟨h.withMode _, rfl⟩
      · rw [if_neg hnewline]
        exact .inr ⟨h.push _ _, rfl⟩
  · split_ifs
    · exact .inr ⟨h.push _ _, rfl⟩
    · exact .inr ⟨h.withMode _, rfl⟩
    · exact .inr ⟨(h.push _ _).push _ _, rfl⟩
  · split_ifs
    · exact .inr ⟨h.withMode .lost, rfl⟩
    · exact .inr ⟨h.withMode _, rfl⟩
    · exact .inr ⟨h.withMode _, rfl⟩
    · exact .inr ⟨h.push _ _, hcontext _⟩
    · exact hresume _ _
  · split_ifs
    · exact .inr ⟨h.withMode _, rfl⟩
    · exact hresume _ _
  · split_ifs
    · exact .inr ⟨h.push _ _, hcontext _⟩
    · exact .inr ⟨h.withMode _, rfl⟩
  · next hcomment =>
    rw [hcomment] at hmode
    exact nomatch hmode
  · next hangle =>
    rw [hangle] at hmode
    exact nomatch hmode
  · exact .inr ⟨h, hmode⟩

/-- The word at a place cannot become what it should be any more: it is complete, it has too many
characters, or the reader is lost. -/
def Spoilt (line : Line) (place : ℕ) (shown : List Shown) (r : Reader Line) : Prop :=
  r.Differs line place shown ∨ (r.Swollen line place shown ∧ isInWord r.mode = true) ∨
    r.mode = .lost

theorem read_spoilt {text : List (Glyph Line)} (htext : ∀ g ∈ text, g.line? ≠ some line)
    (h : r.Spoilt line place shown) : (r.read dialect text).Spoilt line place shown := by
  induction text generalizing r with
  | nil => exact h
  | cons g text ih =>
    apply ih fun other hother ↦ htext other (List.mem_cons_of_mem g hother)
    match h with
    | .inl hdiffers => exact .inl (step_differs (htext g List.mem_cons_self) hdiffers)
    | .inr (.inl ⟨hswollen, hin⟩) => exact (step_swollen hswollen hin).imp_right .inl
    | .inr (.inr hlost) =>
      rw [step_lost hlost]
      exact h

theorem Spoilt.ne (h : r.Spoilt line place shown) (hmode : r.mode ≠ .lost) {command : Command Line}
    (hcommand : command ∈ r.commands) (hline : command.line = some line) :
    (command.words.map Word.shown)[place]? ≠ some shown := by
  match h with
  | .inl hdiffers => exact hdiffers.done command hcommand hline
  | .inr (.inl ⟨hswollen, _⟩) => exact hswollen.done command hcommand hline
  | .inr (.inr hlost) => exact absurd hlost hmode

end Differs

/-! ## Values outside of quotes -/

/-- What has been read of a word, and is not yet in it. -/
def pending : Mode → List Shown
  | .doubleEscape _ => [.char '\\']
  | .dollar _ _ => [.char '$']
  | _ => []

/-- Modes in the middle of a value. -/
def isInValue : Mode → Bool
  | .word | .single | .double | .escape true | .doubleEscape _ => true
  | .dollar _ value => value
  | _ => false

/-- A text has been read, and the word holds less than it: quoting has taken characters away. -/
structure Light (text : List Char) (r : Reader Line) : Prop where
  mode : isInValue r.mode = true
  weight : weight (Word.shown r.token ++ pending r.mode) = weight (text.map Shown.char)
  length : r.token.length + (pending r.mode).length < text.length

section Values

variable {line : Line} {place : ℕ} {shown : List Shown} {text : List Char}

theorem Light.finish (hplaced : r.Placed line place shown) (h : r.Light text)
    (hmode : r.mode = .word) (hlen : text.length ≤ shown.length) :
    (r.finish dialect).Differs line place shown ∨ (r.finish dialect).mode = .lost := by
  have hne : Word.shown r.token ≠ shown := by
    intro heq
    have hlt := h.length
    rw [← heq, Word.shown, List.length_map] at hlen
    omega
  have hfinish : (r.finish dialect).Differs line place shown ∨ r.finish dialect = r.lose :=
    hplaced.finish hmode hne
  exact hfinish.imp_right fun hlost ↦ by rw [hlost]; rfl

/-- A quoting character is taken away. -/
theorem Light.quoting (h : r.Light text) (hmode : pending r.mode = []) {mode : Mode}
    (hin : isInValue mode = true) (hpending : pending mode = []) {c : Char}
    (hc : isQuoting c = true) :
    ({ r with mode := mode } : Reader Line).Light (text ++ [c]) where
  mode := hin
  weight := by
    have hweight := h.weight
    rw [hmode, List.append_nil] at hweight
    rw [hpending, List.append_nil, List.map_append, weight_append, List.map_singleton,
      weight_quoting hc]
    exact hweight
  length := by
    have hlt := h.length
    rw [hmode] at hlt
    rw [hpending, List.length_append, List.length_singleton]
    exact Nat.lt_succ_of_lt hlt

/-- A character goes into the word. -/
theorem Light.push (h : r.Light text) (hmode : pending r.mode = []) {mode : Mode}
    (hin : isInValue mode = true) (hpending : pending mode = []) (c : Char) (quoted value : Bool) :
    (r.push mode ⟨.char c, quoted, value⟩).Light (text ++ [c]) where
  mode := hin
  weight := by
    have hweight := h.weight
    rw [hmode, List.append_nil] at hweight
    rw [Reader.push, hpending, Word.shown, List.map_append, List.append_nil, weight_append,
      List.map_append, weight_append, ← hweight]
    rfl
  length := by
    have hlt := h.length
    rw [hmode] at hlt
    rw [Reader.push, hpending, List.length_append, List.length_append, List.length_singleton,
      List.length_singleton]
    exact Nat.succ_lt_succ hlt

/-- A backslash between double quotes, or a dollar sign, waits for the next character. -/
theorem Light.waits (h : r.Light text) (hmode : pending r.mode = []) {mode : Mode} {c : Char}
    (hin : isInValue mode = true) (hpending : pending mode = [.char c]) :
    ({ r with mode := mode } : Reader Line).Light (text ++ [c]) where
  mode := hin
  weight := by
    have hweight := h.weight
    rw [hmode, List.append_nil] at hweight
    rw [hpending, weight_append, hweight, List.map_append, weight_append, List.map_singleton]
  length := by
    have hlt := h.length
    rw [hmode] at hlt
    rw [hpending, List.length_append]
    exact Nat.succ_lt_succ hlt

theorem Light.between (hplaced : r.Placed line place shown) (h : r.Light text)
    (hmode : r.mode = .double) (hvalue : g.isValue = true) :
    (r.between g).Placed line place shown ∧ (r.between g).Light (text ++ [g.char]) ∨
      (r.between g).mode = .lost := by
  have hpending : pending r.mode = [] := by rw [hmode]; rfl
  unfold Reader.between
  rw [hvalue]
  split
  · next heq =>
    rw [heq]
    exact .inl ⟨hplaced.withMode _, h.quoting hpending rfl rfl (by decide)⟩
  · next heq =>
    rw [heq]
    exact .inl ⟨hplaced.withMode _, h.waits hpending rfl rfl⟩
  · next heq =>
    rw [heq]
    exact .inl ⟨hplaced.withMode _, h.waits hpending rfl rfl⟩
  · exact .inr rfl
  · exact .inl ⟨hplaced.push _ _, h.push hpending rfl rfl _ _ _⟩

theorem Light.bare (hplaced : r.Placed line place shown) (h : r.Light text)
    (hmode : r.mode = .word) (hlen : text.length ≤ shown.length) (hvalue : g.isValue = true) :
    (r.bare dialect g).Differs line place shown ∨
      (r.bare dialect g).Placed line place shown ∧ (r.bare dialect g).Light (text ++ [g.char]) ∨
      (r.bare dialect g).mode = .lost := by
  have hpending : pending r.mode = [] := by rw [hmode]; rfl
  have hbegin : r.begin g = r := by
    unfold begin
    rw [hmode]
  unfold Reader.bare
  rw [hbegin]
  simp only [hvalue, if_true]
  split_ifs
  · exact (h.finish hplaced hmode hlen).imp_right .inr
  · exact .inr (.inr rfl)
  · exact .inr (.inr rfl)
  · next hcomment =>
    rw [hmode] at hcomment
    simp at hcomment
  · apply Or.inr
    unfold enter
    rw [hmode, hvalue]
    split
    · next heq =>
      rw [heq]
      exact .inl ⟨hplaced.withMode _, h.quoting hpending rfl rfl (by decide)⟩
    · next heq =>
      rw [heq]
      exact .inl ⟨hplaced.withMode _, h.quoting hpending rfl rfl (by decide)⟩
    · next heq =>
      rw [heq]
      exact .inl ⟨hplaced.withMode _, h.quoting hpending rfl rfl (by decide)⟩
    · next heq =>
      rw [heq]
      exact .inl ⟨hplaced.withMode _, h.waits hpending rfl rfl⟩
    · exact .inr rfl
    · exact .inl ⟨hplaced.push _ _, h.push hpending rfl rfl _ _ _⟩

/-- The backslash which was waited for is taken away. -/
theorem Light.drop (h : r.Light text) (hmode : pending r.mode = [.char '\\']) :
    ({ r with mode := .double } : Reader Line).Light text where
  mode := rfl
  weight := by
    have hweight := h.weight
    rw [hmode, weight_append, weight_quoting (by decide), Nat.add_zero] at hweight
    exact (congrArg Reader.weight (List.append_nil _)).trans hweight
  length := by
    have hlt := h.length
    rw [hmode] at hlt
    exact Nat.lt_of_succ_lt hlt

/-- The character which was waited for goes into the word. -/
theorem Light.settle (h : r.Light text) {c : Char} (hmode : pending r.mode = [.char c])
    {mode : Mode} (hin : isInValue mode = true) (hpending : pending mode = [])
    (quoted value : Bool) : (r.push mode ⟨.char c, quoted, value⟩).Light text where
  mode := hin
  weight := by
    have hweight := h.weight
    rw [hmode] at hweight
    rw [Reader.push, hpending, List.append_nil, Word.shown, List.map_append]
    exact hweight
  length := by
    have hlt := h.length
    rw [hmode] at hlt
    rw [Reader.push, hpending, List.length_append]
    exact hlt

/-- A value which has lost a character goes on, ends too early, or is expanded. -/
theorem step_light (hplaced : r.Placed line place shown) (h : r.Light text)
    (hlen : text.length ≤ shown.length) (hvalue : g.isValue = true) :
    (r.step dialect g).Differs line place shown ∨
      (r.step dialect g).Placed line place shown ∧ (r.step dialect g).Light (text ++ [g.char]) ∨
      (r.step dialect g).mode = .lost := by
  have hmode := h.mode
  unfold step
  split
  · next heq =>
    rw [heq] at hmode
    exact nomatch hmode
  · next heq => exact h.bare hplaced heq hlen hvalue
  · next heq =>
    have hpending : pending r.mode = [] := by rw [heq]; rfl
    apply Or.inr
    apply Or.inl
    split_ifs with hquote
    · rw [beq_iff_eq.mp hquote]
      exact ⟨hplaced.withMode _, h.quoting hpending rfl rfl (by decide)⟩
    · exact ⟨hplaced.push _ _, h.push hpending rfl rfl _ _ _⟩
  · next heq => exact .inr (h.between hplaced heq hvalue)
  · next inWord heq =>
    rw [heq] at hmode
    cases inWord with
    | false => exact nomatch hmode
    | true =>
      have hpending : pending r.mode = [] := by rw [heq]; rfl
      apply Or.inr
      apply Or.inl
      by_cases hnewline : (g.char == '\n') = true
      · rw [if_pos hnewline, beq_iff_eq.mp hnewline]
        exact ⟨hplaced.withMode _, h.quoting hpending rfl rfl (by decide)⟩
      · rw [if_neg hnewline]
        exact ⟨hplaced.push _ _, h.push hpending rfl rfl _ _ _⟩
  · next value heq =>
    have hpending : pending r.mode = [.char '\\'] := by rw [heq]; rfl
    apply Or.inr
    apply Or.inl
    split_ifs with hspecial hnewline
    · exact ⟨hplaced.push _ _, (h.drop hpending).push rfl rfl rfl _ _ _⟩
    · rw [beq_iff_eq.mp hnewline]
      exact ⟨hplaced.withMode _, (h.drop hpending).quoting rfl rfl rfl (by decide)⟩
    · exact ⟨(hplaced.push _ _).push _ _,
        (h.settle hpending rfl rfl true value).push rfl rfl rfl _ _ _⟩
  · next quoted value heq =>
    have hpending : pending r.mode = [.char '$'] := by rw [heq]; rfl
    have hpasted : value = true := by
      rw [heq] at hmode
      exact hmode
    rw [hpasted, Bool.true_or, if_pos rfl]
    split_ifs
    · exact .inr (.inr rfl)
    · cases quoted with
      | true =>
        exact .inr ((h.settle hpending rfl rfl true true).between (hplaced.push _ _) rfl hvalue)
      | false =>
        exact (h.settle hpending rfl rfl false true).bare (hplaced.push _ _) rfl hlen hvalue
  · next heq =>
    rw [heq] at hmode
    exact nomatch hmode
  · next heq =>
    rw [heq] at hmode
    exact nomatch hmode
  · next heq =>
    rw [heq] at hmode
    exact nomatch hmode
  · next heq =>
    rw [heq] at hmode
    exact nomatch hmode
  · next heq => exact .inr (.inr heq)

/-- Behind the value comes a blank, which is more than the word should have. -/
theorem Light.space (hplaced : r.Placed line place (text.map Shown.char)) (h : r.Light text) :
    (r.step dialect ⟨' ', .own⟩).Spoilt line place (text.map Shown.char) := by
  have hswollen : ∀ r : Reader Line, r.Placed line place (text.map Shown.char) → r.Light text →
      pending r.mode = [] → ∀ mode, isInWord mode = true →
        (r.push mode ⟨.char ' ', true, false⟩).Spoilt line place (text.map Shown.char) := by
    intro r hplaced h hpending mode hin
    refine .inr (.inl ⟨⟨hplaced.push _ _, ?_, ?_⟩, hin⟩)
    · have hweight := h.weight
      rw [hpending, List.append_nil] at hweight
      rw [← hweight, Reader.push, Word.shown, Word.shown, List.map_append, weight_append]
      exact Nat.lt_succ_self _
    · rw [Reader.push, isNumber, List.all_append, Bool.and_eq_false_iff]
      exact .inr rfl
  have hfinish : ∀ r : Reader Line, r.Placed line place (text.map Shown.char) → r.Light text →
      r.mode = .word →
        (r.bare dialect ⟨' ', .own⟩).Spoilt line place (text.map Shown.char) := by
    intro r hplaced h hword
    have hend : (r.finish dialect).Differs line place (text.map Shown.char) ∨
        (r.finish dialect).mode = .lost :=
      h.finish hplaced hword (Nat.le_of_eq (by rw [List.length_map]))
    change (r.finish dialect).Spoilt line place (text.map Shown.char)
    exact hend.imp_right .inr
  have hmode := h.mode
  unfold step
  split
  · next heq =>
    rw [heq] at hmode
    cases hmode
  · next heq => exact hfinish r hplaced h heq
  · next heq => exact hswollen r hplaced h (by rw [heq]; rfl) .single rfl
  · next heq => exact hswollen r hplaced h (by rw [heq]; rfl) .double rfl
  · next inWord heq =>
    exact hswollen r hplaced h (by rw [heq]; rfl) .word rfl
  · next value heq =>
    have hpending : pending r.mode = [.char '\\'] := by rw [heq]; rfl
    exact hswollen (r.push .double ⟨.char '\\', true, value⟩) (hplaced.push _ _)
      (h.settle hpending rfl rfl true value) rfl .double rfl
  · next quoted value heq =>
    have hpending : pending r.mode = [.char '$'] := by rw [heq]; rfl
    cases quoted with
    | true =>
      exact hswollen (r.push .double ⟨.char '$', true, value⟩) (hplaced.push _ _)
        (h.settle hpending rfl rfl true value) rfl .double rfl
    | false =>
      exact hfinish (r.push .word ⟨.char '$', false, value⟩) (hplaced.push _ _)
        (h.settle hpending rfl rfl false value) rfl
  · next heq =>
    rw [heq] at hmode
    cases hmode
  · next heq =>
    rw [heq] at hmode
    cases hmode
  · next heq =>
    rw [heq] at hmode
    cases hmode
  · next heq =>
    rw [heq] at hmode
    cases hmode
  · next heq => exact .inr (.inr heq)

theorem value_line {text : List Char} : ∀ g ∈ value text ++ own " ", g.line? ≠ some line := by
  intro g hg
  match List.mem_append.mp hg with
  | .inl hvalue =>
    have ⟨c, _, heq⟩ := List.mem_map.mp hvalue
    rw [← heq]
    exact fun h ↦ nomatch h
  | .inr hown =>
    have ⟨c, _, heq⟩ := List.mem_map.mp hown
    rw [← heq]
    exact fun h ↦ nomatch h

/-- A value which has lost a character does not come out as it was. -/
theorem read_light {rest : List Char} (hshown : shown = (text ++ rest).map Shown.char)
    (hplaced : r.Placed line place shown) (h : r.Light text) :
    (r.read dialect (value rest ++ own " ")).Spoilt line place shown := by
  induction rest generalizing r text with
  | nil =>
    rw [List.append_nil] at hshown
    subst hshown
    exact h.space hplaced
  | cons c rest ih =>
    have hlen : text.length ≤ shown.length := by
      rw [hshown, List.length_map, List.length_append]
      omega
    have hstep : (r.step dialect ⟨c, .value⟩).Differs line place shown ∨
        (r.step dialect ⟨c, .value⟩).Placed line place shown ∧
          (r.step dialect ⟨c, .value⟩).Light (text ++ [c]) ∨
        (r.step dialect ⟨c, .value⟩).mode = .lost := step_light hplaced h hlen rfl
    change ((r.step dialect ⟨c, .value⟩).read dialect (value rest ++ own " ")).Spoilt line place shown
    match hstep with
    | .inl hdiffers => exact read_spoilt value_line (.inl hdiffers)
    | .inr (.inl ⟨hnext, hlight⟩) =>
      exact ih (by rw [hshown, List.append_assoc, List.singleton_append]) hnext hlight
    | .inr (.inr hlost) => exact read_spoilt value_line (.inr (.inr hlost))

/-- The first character which quoting takes away. -/
theorem light_of_quoting (htoken : Word.shown r.token = text.map Shown.char) {mode : Mode}
    (hin : isInValue mode = true) (hpending : pending mode = []) {c : Char}
    (hc : isQuoting c = true) : ({ r with mode := mode } : Reader Line).Light (text ++ [c]) where
  mode := hin
  weight := by
    rw [hpending, List.append_nil, List.map_append, weight_append, List.map_singleton,
      weight_quoting hc, ← htoken]
    rfl
  length := by
    have hlen : r.token.length = text.length := by
      have hsame := congrArg List.length htoken
      rw [Word.shown, List.length_map, List.length_map] at hsame
      exact hsame
    rw [hpending, List.length_append]
    change r.token.length + 0 < text.length + 1
    omega

/-- An active character of a value outside of quotes. -/
theorem step_active (hplaced : r.Placed line place shown) (hmode : r.mode = .word)
    (htoken : Word.shown r.token = text.map Shown.char) (hvalue : g.isValue = true)
    (hlen : text.length < shown.length) (hactive : isActive false g.char = true) :
    (r.step dialect g).Differs line place shown ∨
      (r.step dialect g).Placed line place shown ∧ (r.step dialect g).Light (text ++ [g.char]) ∨
      (r.step dialect g).mode = .lost := by
  have hbegin : r.begin g = r := by
    unfold begin
    rw [hmode]
  have hne : Word.shown r.token ≠ shown := by
    intro heq
    rw [← heq, htoken, List.length_map] at hlen
    exact absurd hlen (Nat.lt_irrefl _)
  have hfinish : (r.finish dialect).Differs line place shown ∨ r.finish dialect = r.lose :=
    hplaced.finish hmode hne
  rw [step, hmode]
  simp only
  unfold bare
  rw [hbegin]
  simp only [hvalue, if_true]
  split_ifs with hblank hseparates hangle hcomment
  · exact hfinish.imp_right fun hlost ↦ .inr (by rw [hlost]; rfl)
  · exact .inr (.inr rfl)
  · exact .inr (.inr rfl)
  · rw [hmode] at hcomment
    simp at hcomment
  · apply Or.inr
    unfold enter
    rw [hmode]
    split
    · next heq =>
      rw [heq]
      exact .inl ⟨hplaced.withMode _, light_of_quoting htoken rfl rfl (by decide)⟩
    · next heq =>
      rw [heq]
      exact .inl ⟨hplaced.withMode _, light_of_quoting htoken rfl rfl (by decide)⟩
    · next heq =>
      rw [heq]
      exact .inl ⟨hplaced.withMode _, light_of_quoting htoken rfl rfl (by decide)⟩
    · next heq =>
      rw [heq] at hactive
      exact absurd hactive (by decide)
    · exact .inr rfl
    · next hback hsingle hdouble hdollar htick =>
      simp [isActive, hblank, hseparates, hangle] at hactive
      rcases hactive with (heq | heq | heq) | heq
      · exact absurd heq hdouble
      · exact absurd heq hback
      · exact absurd heq htick
      · exact absurd heq hsingle

theorem Placed.settled (h : r.Placed line place shown) : r.settled.Placed line place shown := by
  unfold Reader.settled
  split
  · exact h.push _ _
  · exact h

/-- Outside of quotes, a value which is not literal does not come out as it was. -/
theorem read_notLiteral {rest : List Char} (hshown : shown = (text ++ rest).map Shown.char)
    (hplaced : r.Placed line place shown) (hmode : r.mode = .word ∨ r.mode = .dollar false true)
    (htoken : Word.shown r.settled.token = text.map Shown.char)
    (hnot : literal false rest = false ∨
      r.mode = .dollar false true ∧ rest.head?.any (opens false) = true) :
    (r.read dialect (value rest ++ own " ")).Spoilt line place shown := by
  induction rest generalizing r text with
  | nil =>
    rcases hnot with h | h
    · cases h
    · cases h.2
  | cons c rest ih =>
    change ((r.step dialect ⟨c, .value⟩).read dialect (value rest ++ own " ")).Spoilt line place shown
    by_cases hopens : r.mode = .dollar false true ∧ opens false c = true
    · apply read_spoilt value_line
      refine .inr (.inr ?_)
      rw [step, hopens.1]
      simp only
      rw [if_pos hopens.2, Bool.true_or, if_pos rfl]
      rfl
    have hsettled : r.settled.step dialect ⟨c, .value⟩ = r.step dialect ⟨c, .value⟩ := by
      apply step_settled
      intro quoted pasted hdollar
      rcases hmode with hword | heq
      · cases hword.symm.trans hdollar
      · obtain ⟨hquoted, _⟩ := Mode.dollar.inj (heq.symm.trans hdollar)
        rw [← hquoted]
        exact Bool.not_eq_true _ ▸ fun h ↦ hopens ⟨heq, h⟩
    have hword : r.settled.mode = .word := by
      unfold Reader.settled
      rcases hmode with h | h
      · rw [h]; exact h
      · rw [h]; rfl
    rw [← hsettled]
    by_cases hactive : isActive false c = true
    · have hlen : text.length < shown.length := by
        rw [hshown, List.length_map, List.length_append, List.length_cons]
        omega
      have hstep : (r.settled.step dialect ⟨c, .value⟩).Differs line place shown ∨
          (r.settled.step dialect ⟨c, .value⟩).Placed line place shown ∧
            (r.settled.step dialect ⟨c, .value⟩).Light (text ++ [c]) ∨
          (r.settled.step dialect ⟨c, .value⟩).mode = .lost :=
        step_active hplaced.settled hword htoken rfl hlen hactive
      rcases hstep with hdiffers | ⟨hnext, hlight⟩ | hlost
      · exact read_spoilt value_line (.inl hdiffers)
      · exact read_light (by rw [hshown, List.append_assoc, List.singleton_append]) hnext hlight
      · exact read_spoilt value_line (.inr (.inr hlost))
    · rw [Bool.not_eq_true] at hactive
      have hboth := @settled_step Line dialect r.settled ⟨c, .value⟩ false hword hactive
      obtain ⟨hstep, hnext⟩ := hboth
      generalize r.settled.step dialect ⟨c, .value⟩ = next at hstep hnext
      have hplace : next.Placed line place shown := by
        have hcommands : next.commands = r.settled.commands := by
          rw [← settled_commands, hstep]
        have hwords : next.words = r.settled.words := by
          rw [← settled_words, hstep]
        have htarget : next.target = r.settled.target := by
          rw [← settled_target, hstep]
        exact ⟨hcommands ▸ hplaced.settled.done, hwords ▸ hplaced.settled.length,
          hwords ▸ hplaced.settled.words, htarget ▸ hplaced.settled.target⟩
      apply @ih next (text ++ [c])
      · rw [hshown, List.append_assoc, List.singleton_append]
      · exact hplace
      · rw [hnext]
        split_ifs
        · exact .inr rfl
        · exact .inl rfl
      · rw [hstep, Word.shown, List.map_append, List.map_append, ← htoken]
        rfl
      · have hrest : (c == '$' && rest.head?.any (opens false)) = true ∨ literal false rest = false := by
          rcases hnot with h | h
          · rw [literal, hactive, Bool.not_false, Bool.true_and, Bool.and_eq_false_iff,
              Bool.not_eq_false'] at h
            exact h
          · exact absurd h hopens
        rcases hrest with h | h
        · rw [Bool.and_eq_true, beq_iff_eq] at h
          exact .inr ⟨hnext.trans (if_pos h.1), h.2⟩
        · exact .inl h

theorem fixed_value {c : Char} {rest : List Char} :
    Fixed dialect ((value (c :: rest) : List (Glyph Line)).map (Glyph.piece false)) ↔
      dialect.expands ((c :: rest).map fun c ↦ (.char c, false)) = false := by
  have hlook : Word.look ((value (c :: rest) : List (Glyph Line)).map (Glyph.piece false)) =
      (c :: rest).map fun c ↦ (.char c, false) := by
    rw [Word.look, value, List.map_map, List.map_map]
    rfl
  rw [Fixed, hlook]
  exact Iff.rfl

section Bare

variable {c : Char} {rest : List Char}

theorem literal_value :
    literal false ((value (c :: rest) : List (Glyph Line)).map Glyph.char) =
      literal false (c :: rest) := by
  rw [value, List.map_map]
  exact congrArg (literal false) (List.map_id _)

variable (hhash : c ≠ '#')

include hhash

theorem head_value : ∀ g ∈ (value (c :: rest) : List (Glyph Line)).head?, g.char ≠ '#' := by
  intro g hg
  rw [← Option.some.inj hg]
  exact hhash

/-- Outside of quotes, a plain value is a word. -/
theorem appends_value (h : IsPlain dialect (c :: rest)) :
    Appends dialect (value (c :: rest) : List (Glyph Line))
      [(value (c :: rest) : List (Glyph Line)).map (Glyph.piece false)] :=
  appends_literal (List.cons_ne_nil _ _) (head_value hhash) (literal_value.trans h.1)
    (fixed_value.mpr h.2)

/-- Outside of quotes, a value which is not plain does not come out as it was. -/
theorem read_notPlain (hready : r.Ready) (hactive : isActive false c = false)
    (h : ¬ IsPlain dialect (c :: rest))
    (hdone : ∀ command ∈ r.commands, command.line ≠ some line) :
    (r.read dialect (value (c :: rest) ++ own " ")).Spoilt line r.words.length
      ((c :: rest).map Shown.char) := by
  by_cases hliteral : literal false (c :: rest) = true
  · have hread : (r.read dialect (value (c :: rest))).settled =
        { r with mode := .word, token := (value (c :: rest)).map (Glyph.piece false) } :=
      hready.read_literal (List.cons_ne_nil _ _) (head_value hhash) (literal_value.trans hliteral)
    have hexpands : ¬ Fixed dialect ((value (c :: rest) : List (Glyph Line)).map (Glyph.piece false)) :=
      fun hfixed ↦ h ⟨hliteral, fixed_value.mp hfixed⟩
    refine .inr (.inr ?_)
    rw [read_append, read_space, step_space_finish (by rw [hread]), hread, finish]
    simp only
    rw [Fixed, Bool.not_eq_false] at hexpands
    rw [if_pos hexpands]
    rfl
  · rw [Bool.not_eq_true] at hliteral
    have htoken : Word.shown ({ r with mode := .word } : Reader Line).settled.token =
        [].map Shown.char := by
      change Word.shown r.token = []
      rw [hready.token]
      rfl
    have hbegin : r.read dialect (value (c :: rest) ++ own " ") =
        { r with mode := .word : Reader Line }.read dialect (value (c :: rest) ++ own " ") := by
      change (r.step dialect ⟨c, .value⟩).read dialect (value rest ++ own " ") = _
      rw [step_blank hready hactive hhash]
      rfl
    rw [hbegin]
    exact @read_notLiteral _ _ _ _ _ _ [] _ rfl
      ⟨fun command hcommand hline ↦ absurd hline (hdone command hcommand), rfl, hready.words,
        hready.target⟩ (.inl rfl) htoken (.inl hliteral)

end Bare

end Values

end IsvValidation.Library.Shell.Reader
