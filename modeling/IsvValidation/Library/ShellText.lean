import IsvValidation.Library.Shell

/-!
# Reading texts

Lemmas about the reader of a script: commands which are complete stay as they are, the mode of the
reader over the script's own text does not depend on the words, literal text goes into the word which
is being read, and words between blanks are appended to the command one after the other.
-/

namespace IsvValidation.Library.Shell

variable {Line : Type} {dialect : Dialect}

namespace Reader

variable {r : Reader Line} {g : Glyph Line}

@[simp] theorem read_nil : r.read dialect [] = r := rfl

@[simp] theorem read_cons (text : List (Glyph Line)) :
    r.read dialect (g :: text) = (r.step dialect g).read dialect text := rfl

theorem read_append (first second : List (Glyph Line)) :
    r.read dialect (first ++ second) = (r.read dialect first).read dialect second :=
  List.foldl_append

theorem read_space : r.read dialect (own " ") = r.step dialect ⟨' ', .own⟩ := rfl

theorem step_lost (h : r.mode = .lost) : r.step dialect g = r := by
  rw [step, h]

theorem read_lost (h : r.mode = .lost) (text : List (Glyph Line)) : r.read dialect text = r := by
  induction text with
  | nil => rfl
  | cons g text ih => rw [read_cons, step_lost h, ih]

/-! ## Complete commands -/

/-- With other commands before its own. -/
def after (earlier : List (Command Line)) (r : Reader Line) : Reader Line :=
  { r with commands := earlier ++ r.commands }

section After

variable (earlier : List (Command Line))

theorem finish_after : (r.after earlier).finish dialect = (r.finish dialect).after earlier := by
  have ⟨mode, token, target, line, words, commands⟩ := r
  cases mode with
  | word =>
    simp only [finish, apply_ite (after earlier)]
    rfl
  | _ => rfl

theorem close_after : (r.after earlier).close = r.close.after earlier := by
  have ⟨mode, token, target, line, words, commands⟩ := r
  cases mode <;> simp [close, fresh, after]

theorem endCommand_after :
    (r.after earlier).endCommand dialect = (r.endCommand dialect).after earlier := by
  rw [endCommand, finish_after, close_after]
  rfl

theorem redirect_after :
    (r.after earlier).redirect dialect = (r.redirect dialect).after earlier := by
  have hnumber : (r.after earlier).finishNumber dialect = (r.finishNumber dialect).after earlier := by
    unfold finishNumber
    rw [finish_after]
    have ⟨mode, token, target, line, words, commands⟩ := r
    cases mode with
    | word =>
      simp only [apply_ite (after earlier)]
      rfl
    | _ => rfl
  rw [redirect, hnumber, redirect]
  have ⟨mode, token, target, line, words, commands⟩ := r.finishNumber dialect
  cases mode <;> rfl

theorem begin_after : (r.after earlier).begin g = (r.begin g).after earlier := by
  have ⟨mode, token, target, line, words, commands⟩ := r
  cases mode with
  | blank => cases words <;> rfl
  | _ => rfl

theorem enter_after (inWord : Bool) :
    (r.after earlier).enter g inWord = (r.enter g inWord).after earlier := by
  unfold enter
  split <;> rfl

theorem bare_after : (r.after earlier).bare dialect g = (r.bare dialect g).after earlier := by
  simp only [bare, finish_after, endCommand_after, redirect_after, begin_after, enter_after,
    apply_ite (after earlier)]
  rfl

theorem between_after : (r.after earlier).between g = (r.between g).after earlier := by
  unfold between
  split <;> rfl

theorem resume_after (quoted : Bool) (piece : Piece) :
    (r.after earlier).resume dialect g quoted piece =
      (r.resume dialect g quoted piece).after earlier := by
  cases quoted with
  | true => exact between_after (r := r.push (context true) piece) earlier
  | false => exact bare_after (r := r.push (context false) piece) earlier

theorem step_after : (r.after earlier).step dialect g = (r.step dialect g).after earlier := by
  have ⟨mode, token, target, line, words, commands⟩ := r
  cases mode with
  | blank => exact bare_after earlier
  | word => exact bare_after earlier
  | single =>
    simp only [step, apply_ite (after earlier)]
    rfl
  | double => exact between_after earlier
  | escape inWord =>
    simp only [step, apply_ite (after earlier)]
    rfl
  | doubleEscape value =>
    simp only [step, apply_ite (after earlier)]
    rfl
  | dollar quoted value =>
    simp only [step, apply_ite (after earlier), ← resume_after]
    rfl
  | name quoted text =>
    simp only [step, apply_ite (after earlier), ← resume_after]
    rfl
  | braced quoted text =>
    simp only [step, apply_ite (after earlier)]
    rfl
  | comment =>
    simp only [step, apply_ite (after earlier), ← endCommand_after]
    rfl
  | angle =>
    simp only [step, apply_ite (after earlier), ← bare_after]
    rfl
  | lost => rfl

/-- What was read before has no influence on the reader. -/
theorem read_after (text : List (Glyph Line)) :
    (r.after earlier).read dialect text = (r.read dialect text).after earlier := by
  induction text generalizing r with
  | nil => rfl
  | cons g text ih => rw [read_cons, read_cons, step_after, ih]

/-- Complete commands have no influence on what follows. -/
theorem read_fresh (text : List (Glyph Line)) :
    (fresh earlier).read dialect text = ((fresh []).read dialect text).after earlier := by
  rw [← read_after, after, fresh, fresh, List.append_nil]

end After

end Reader

/-! ## Modes over the script's own text -/

/-- Outside of quotes. -/
def bareMode (mode : Mode) (c : Char) : Mode :=
  if isBlank c || separates c then .blank
  else if isAngle c then .angle
  else if c == '#' && mode == .blank then .comment
  else
    match c with
    | '\\' => .escape (mode == .word)
    | '\'' => .single
    | '"' => .double
    | '$' => .dollar false false
    | '`' => .lost
    | _ => .word

/-- Between double quotes. -/
def betweenMode (c : Char) : Mode :=
  match c with
  | '"' => .word
  | '\\' => .doubleEscape false
  | '$' => .dollar true false
  | '`' => .lost
  | _ => .double

def resumeMode (quoted : Bool) (c : Char) : Mode :=
  if quoted then betweenMode c else bareMode .word c

/-- The mode behind a character of the script's own. -/
def nextMode (mode : Mode) (c : Char) : Mode :=
  match mode with
  | .blank | .word => bareMode mode c
  | .single => if c == '\'' then .word else .single
  | .double => betweenMode c
  | .escape inWord => if c == '\n' then if inWord then .word else .blank else .word
  | .doubleEscape _ => .double
  | .dollar quoted _ =>
    if opens quoted c then
      if !(isNameStart c || isSpecial c || c == '\x7b') then .lost
      else if isNameStart c then .name quoted [c]
      else if c == '\x7b' then .braced quoted []
      else Reader.context quoted
    else resumeMode quoted c
  | .name quoted text => if isNameChar c then .name quoted (text ++ [c]) else resumeMode quoted c
  | .braced quoted text =>
    if c == '\x7d' then Reader.context quoted else .braced quoted (text ++ [c])
  | .comment => if c == '\n' then .blank else .comment
  | .angle => if isAngle c || c == '&' || c == '|' then .angle else bareMode .blank c
  | .lost => .lost

/-- A character of a value waits for the next one. -/
def waits : Mode → Bool
  | .dollar _ value | .doubleEscape value => value
  | _ => false

theorem nextMode_waits (mode : Mode) (c : Char) : waits (nextMode mode c) = false := by
  have hbare : ∀ mode, waits (bareMode mode c) = false := by
    intro mode
    unfold bareMode
    split_ifs
    · rfl
    · rfl
    · rfl
    · split <;> rfl
  have hbetween : waits (betweenMode c) = false := by
    unfold betweenMode
    split <;> rfl
  have hresume : ∀ quoted, waits (resumeMode quoted c) = false
    | true => hbetween
    | false => hbare .word
  have hcontext : ∀ quoted, waits (Reader.context quoted) = false := by decide
  unfold nextMode
  split
  · exact hbare _
  · exact hbare _
  · split_ifs <;> rfl
  · exact hbetween
  · split_ifs <;> rfl
  · rfl
  · split_ifs
    · rfl
    · rfl
    · rfl
    · exact hcontext _
    · exact hresume _
  · split_ifs
    · rfl
    · exact hresume _
  · split_ifs
    · exact hcontext _
    · rfl
  · split_ifs <;> rfl
  · split_ifs
    · rfl
    · exact hbare _
  · rfl

namespace Reader

variable {r : Reader Line} {g : Glyph Line}

/-- The word holds no value. -/
def NoValue (r : Reader Line) : Prop := r.token.any Piece.value = false

/-- The mode goes on as for the script's own text; otherwise a word with a value was expanded. -/
def Follows (mode : Mode) (r next : Reader Line) : Prop :=
  next.mode = mode ∧ (r.NoValue → next.NoValue) ∨ next.mode = .lost ∧ ¬ r.NoValue

theorem finish_follows (h : r.mode = .blank ∨ r.mode = .word) :
    Follows .blank r (r.finish dialect) := by
  unfold finish
  match h with
  | .inl h =>
    rw [h]
    exact .inl ⟨h, id⟩
  | .inr h =>
    rw [h]
    simp only
    split_ifs with hlost
    · refine .inr ⟨rfl, fun hnone ↦ ?_⟩
      rw [Bool.and_eq_true] at hlost
      exact Bool.false_ne_true (hnone.symm.trans hlost.1)
    · exact .inl ⟨rfl, fun _ ↦ rfl⟩
    · exact .inl ⟨rfl, fun _ ↦ rfl⟩

theorem endCommand_follows (h : r.mode = .blank ∨ r.mode = .word) :
    Follows .blank r (r.endCommand dialect) := by
  have hfinish : Follows .blank r (r.finish dialect) := finish_follows h
  unfold endCommand close
  match hfinish with
  | .inl h =>
    rw [h.1]
    exact .inl ⟨rfl, fun _ ↦ rfl⟩
  | .inr h =>
    rw [h.1]
    exact .inr h

theorem redirect_follows (h : r.mode = .blank ∨ r.mode = .word) :
    Follows .angle r (r.redirect dialect) := by
  have hnumber : Follows .blank r (r.finishNumber dialect) := by
    unfold finishNumber
    match h with
    | .inl h =>
      rw [h]
      exact .inl ⟨h, id⟩
    | .inr h =>
      rw [h]
      simp only
      split_ifs
      · exact .inl ⟨rfl, fun _ ↦ rfl⟩
      · exact finish_follows (.inr h)
  unfold redirect aim
  match hnumber with
  | .inl h =>
    rw [h.1]
    exact .inl ⟨rfl, h.2⟩
  | .inr h =>
    rw [h.1]
    exact .inr h

theorem begin_token : (r.begin g).token = r.token := by
  unfold begin
  split <;> rfl

theorem noValue_push {mode : Mode} {piece : Piece} :
    (r.push mode piece).NoValue ↔ r.NoValue ∧ piece.value = false := by
  simp [NoValue, push]

theorem enter_mode {inWord : Bool} : (r.enter g inWord).mode =
    match g.char with
    | '\\' => .escape inWord
    | '\'' => .single
    | '"' => .double
    | '$' => .dollar false g.isValue
    | '`' => .lost
    | _ => .word := by
  unfold enter
  split <;> simp [lose, push, *]

theorem enter_noValue (hown : g.isValue = false) {inWord : Bool} (h : r.NoValue) :
    (r.enter g inWord).NoValue := by
  unfold enter
  split
  all_goals first | exact h | exact noValue_push.mpr ⟨h, hown⟩

theorem bare_follows (hown : g.isValue = false) (h : r.mode = .blank ∨ r.mode = .word) :
    Follows (bareMode r.mode g.char) r (r.bare dialect g) := by
  unfold bare bareMode
  rw [hown]
  by_cases hblank : isBlank g.char = true
  · simpa [hblank] using finish_follows h
  by_cases hseparates : separates g.char = true
  · simpa [hblank, hseparates] using endCommand_follows h
  by_cases hangle : isAngle g.char = true
  · simpa [hblank, hseparates, hangle] using redirect_follows h
  by_cases hcomment : (g.char == '#' && r.mode == .blank) = true
  · simp only [hblank, hseparates, hangle, hcomment, if_true, Bool.false_eq_true, if_false,
      Bool.or_false]
    exact .inl ⟨rfl, id⟩
  · simp only [hblank, hseparates, hangle, hcomment, Bool.false_eq_true, if_false, Bool.or_false]
    refine .inl ⟨?_, fun hnone ↦ enter_noValue hown ?_⟩
    · rw [enter_mode, hown]
    · rw [NoValue, begin_token]
      exact hnone

theorem between_mode : (r.between g).mode =
    match g.char with
    | '"' => .word
    | '\\' => .doubleEscape g.isValue
    | '$' => .dollar true g.isValue
    | '`' => .lost
    | _ => .double := by
  unfold between
  split <;> simp [lose, push, *]

theorem between_follows (hown : g.isValue = false) :
    Follows (betweenMode g.char) r (r.between g) := by
  refine .inl ⟨?_, fun hnone ↦ ?_⟩
  · rw [between_mode, hown]
    rfl
  · unfold between
    split
    all_goals first | exact hnone | exact noValue_push.mpr ⟨hnone, hown⟩

theorem resume_follows (hown : g.isValue = false) (quoted : Bool) (piece : Piece) :
    Follows (resumeMode quoted g.char) (r.push (context quoted) piece)
      (r.resume dialect g quoted piece) := by
  cases quoted with
  | true => exact between_follows hown
  | false => exact bare_follows (r := r.push .word piece) hown (.inr rfl)

/-- The reader has got no value, and none waits for the next character. -/
def IsOwn (r : Reader Line) : Prop := r.NoValue ∧ waits r.mode = false

/-- Over the script's own text the mode follows from the characters, unless a word with a value is
expanded. -/
theorem step_follows (hown : g.isValue = false) :
    (r.step dialect g).mode = nextMode r.mode g.char ∧ (r.IsOwn → (r.step dialect g).NoValue) ∨
      (r.step dialect g).mode = .lost ∧ ¬ r.IsOwn := by
  have hpush : ∀ mode piece, piece.value = false → r.IsOwn → (r.push mode piece).NoValue :=
    fun _ _ hpiece h ↦ noValue_push.mpr ⟨h.1, hpiece⟩
  have hfollows : ∀ mode next, Follows mode r next →
      next.mode = mode ∧ (r.IsOwn → next.NoValue) ∨ next.mode = .lost ∧ ¬ r.IsOwn :=
    fun _ _ h ↦ h.imp (fun h ↦ ⟨h.1, fun hr ↦ h.2 hr.1⟩) fun h ↦ ⟨h.1, fun hr ↦ h.2 hr.1⟩
  have hresume : ∀ quoted piece, (r.IsOwn → piece.value = false) →
      (r.resume dialect g quoted piece).mode = resumeMode quoted g.char ∧
          (r.IsOwn → (r.resume dialect g quoted piece).NoValue) ∨
        (r.resume dialect g quoted piece).mode = .lost ∧ ¬ r.IsOwn := by
    intro quoted piece hpiece
    have hafter : Follows (resumeMode quoted g.char) (r.push (context quoted) piece)
      (r.resume dialect g quoted piece) := resume_follows hown quoted piece
    exact hafter.imp (fun h ↦ ⟨h.1, fun hr ↦ h.2 (hpush _ _ (hpiece hr) hr)⟩)
      fun h ↦ ⟨h.1, fun hr ↦ h.2 (hpush _ _ (hpiece hr) hr)⟩
  have hbare : ∀ mode, mode = .blank ∨ mode = .word → r.mode = mode →
      Follows (bareMode mode g.char) r (r.bare dialect g) := by
    intro mode h heq
    subst heq
    exact bare_follows hown h
  unfold step
  cases heq : r.mode with
  | blank => exact hfollows _ _ (hbare _ (.inl rfl) heq)
  | word => exact hfollows _ _ (hbare _ (.inr rfl) heq)
  | single =>
    simp only [nextMode]
    by_cases hquote : (g.char == '\'') = true
    · simp only [if_pos hquote]
      exact .inl ⟨trivial, And.left⟩
    · simp only [if_neg hquote]
      exact .inl ⟨rfl, hpush _ _ hown⟩
  | double => exact hfollows _ _ (between_follows hown)
  | escape inWord =>
    simp only [nextMode]
    by_cases hnewline : (g.char == '\n') = true
    · simp only [if_pos hnewline]
      exact .inl ⟨trivial, And.left⟩
    · simp only [if_neg hnewline]
      exact .inl ⟨rfl, hpush _ _ hown⟩
  | doubleEscape value =>
    simp only [nextMode]
    split_ifs
    · exact .inl ⟨rfl, hpush _ _ hown⟩
    · exact .inl ⟨rfl, And.left⟩
    · refine .inl ⟨rfl, fun hr ↦ noValue_push.mpr ⟨hpush _ _ ?_ hr, hown⟩⟩
      have hflag := hr.2
      rw [heq] at hflag
      exact hflag
  | dollar quoted value =>
    have hflag : r.IsOwn → value = false := by
      intro hr
      have hflag := hr.2
      rw [heq] at hflag
      exact hflag
    simp only [nextMode]
    by_cases hopens : opens quoted g.char = true
    · rw [if_pos hopens, if_pos hopens]
      cases value with
      | true => exact .inr ⟨rfl, fun hr ↦ Bool.false_ne_true (hflag hr).symm⟩
      | false =>
        simp only [Bool.false_or]
        split_ifs
        · exact .inl ⟨rfl, And.left⟩
        · exact .inl ⟨rfl, And.left⟩
        · exact .inl ⟨rfl, And.left⟩
        · exact .inl ⟨rfl, hpush _ _ rfl⟩
    · rw [if_neg hopens, if_neg hopens]
      exact hresume quoted _ hflag
  | name quoted text =>
    simp only [nextMode]
    split_ifs
    · exact .inl ⟨rfl, And.left⟩
    · exact hresume quoted _ fun _ ↦ rfl
  | braced quoted text =>
    simp only [nextMode]
    split_ifs
    · exact .inl ⟨rfl, hpush _ _ rfl⟩
    · exact .inl ⟨rfl, And.left⟩
  | comment =>
    simp only [nextMode]
    by_cases hnewline : (g.char == '\n') = true
    · simp only [hnewline, hown, if_true, Bool.false_eq_true, if_false]
      exact hfollows _ _ (endCommand_follows (r := { r with mode := .blank }) (.inl rfl))
    · simp only [hnewline, Bool.false_eq_true, if_false]
      exact .inl ⟨heq, And.left⟩
  | angle =>
    simp only [nextMode]
    by_cases hangle : (isAngle g.char || g.char == '&' || g.char == '|') = true
    · simp only [hangle, hown, if_true, Bool.false_eq_true, if_false]
      exact .inl ⟨heq, And.left⟩
    · simp only [hangle, Bool.false_eq_true, if_false]
      exact hfollows _ _ (bare_follows (r := { r with mode := .blank }) hown (.inl rfl))
  | lost => exact .inl ⟨heq, And.left⟩

theorem step_mode (hown : g.isValue = false) :
    (r.step dialect g).mode = nextMode r.mode g.char ∨ (r.step dialect g).mode = .lost := by
  have hstep : (r.step dialect g).mode = nextMode r.mode g.char ∧
      (r.IsOwn → (r.step dialect g).NoValue) ∨ (r.step dialect g).mode = .lost ∧ ¬ r.IsOwn :=
    step_follows hown
  exact hstep.imp And.left And.left

theorem read_mode {text : List (Glyph Line)} (hown : ∀ g ∈ text, g.isValue = false) :
    (r.read dialect text).mode = text.foldl (fun mode g ↦ nextMode mode g.char) r.mode ∨
      (r.read dialect text).mode = .lost := by
  induction text generalizing r with
  | nil => exact .inl rfl
  | cons g text ih =>
    have hrest := ih (r := r.step dialect g) fun other hother ↦
      hown other (List.mem_cons_of_mem g hother)
    have hstep : (r.step dialect g).mode = nextMode r.mode g.char ∨
        (r.step dialect g).mode = .lost := step_mode (hown g List.mem_cons_self)
    match hstep with
    | .inl hstep =>
      rw [hstep] at hrest
      exact hrest
    | .inr hlost =>
      rw [read_cons, read_lost hlost]
      exact .inr hlost

/-- The mode over the script's own text, as long as no value is in the word. -/
theorem step_own (hown : g.isValue = false) (h : r.IsOwn) :
    (r.step dialect g).mode = nextMode r.mode g.char ∧ (r.step dialect g).IsOwn := by
  have hstep : (r.step dialect g).mode = nextMode r.mode g.char ∧
      (r.IsOwn → (r.step dialect g).NoValue) ∨ (r.step dialect g).mode = .lost ∧ ¬ r.IsOwn :=
    step_follows hown
  have ⟨hmode, hnone⟩ := hstep.resolve_right fun hlost ↦ hlost.2 h
  exact ⟨hmode, hnone h, by rw [hmode]; exact nextMode_waits r.mode g.char⟩

theorem read_own {text : List (Glyph Line)} (hown : ∀ g ∈ text, g.isValue = false) (h : r.IsOwn) :
    (r.read dialect text).mode = text.foldl (fun mode g ↦ nextMode mode g.char) r.mode ∧
      (r.read dialect text).IsOwn := by
  induction text generalizing r with
  | nil => exact ⟨rfl, h⟩
  | cons g text ih =>
    have hstep : (r.step dialect g).mode = nextMode r.mode g.char ∧ (r.step dialect g).IsOwn :=
      step_own (hown g List.mem_cons_self) h
    have hrest := ih (fun other hother ↦ hown other (List.mem_cons_of_mem g hother)) hstep.2
    rw [hstep.1] at hrest
    exact hrest

/-- Lines whose last command ends with them. -/
def isLine (line : List Char) : Bool :=
  line.getLast? == some '\n' &&
    [.blank, .word, .comment].contains (line.dropLast.foldl nextMode .blank)

/-- A newline of the script's own ends a command. -/
theorem step_newline (h : r.IsOwn) (hmode : r.mode ∈ [Mode.blank, .word, .comment]) :
    ∃ command, r.step dialect ⟨'\n', .own⟩ = fresh (r.commands ++ [command]) := by
  have ⟨mode, token, target, line, words, commands⟩ := r
  have hnone : token.any Piece.value = false := h.1
  match mode with
  | .blank => exact ⟨⟨line, words⟩, rfl⟩
  | .word =>
    change ∃ command, Reader.endCommand dialect _ = _
    simp only [endCommand, finish]
    rw [hnone]
    cases target with
    | true => exact ⟨⟨line, words⟩, rfl⟩
    | false => exact ⟨⟨line, words ++ [token]⟩, rfl⟩
  | .comment => exact ⟨⟨line, words⟩, rfl⟩
  | .single | .double | .escape _ | .doubleEscape _ | .dollar _ _ | .name _ _ | .braced _ _
  | .angle | .lost => simp at hmode

/-- A line of the script's own leaves nothing but complete commands. -/
theorem read_line {line : List Char} (h : isLine line = true) :
    ∃ later, (fresh [] : Reader Line).read dialect (line.map fun c ↦ ⟨c, .own⟩) = fresh later := by
  rw [isLine, Bool.and_eq_true, beq_iff_eq, List.getLast?_eq_some_iff, List.contains_iff_mem] at h
  have ⟨⟨front, hfront⟩, hmode⟩ := h
  rw [hfront, List.dropLast_concat] at hmode
  have hown : ∀ g ∈ (front.map fun c ↦ ⟨c, .own⟩ : List (Glyph Line)), g.isValue = false := by
    intro g hg
    have ⟨c, _, heq⟩ := List.mem_map.mp hg
    exact heq ▸ rfl
  have hread := @read_own Line dialect (fresh []) _ hown ⟨rfl, rfl⟩
  rw [List.foldl_map] at hread
  have ⟨command, hend⟩ := @step_newline Line dialect _ hread.2 (hread.1 ▸ hmode)
  rw [hfront, List.map_append, read_append]
  exact ⟨_, hend⟩

/-- The script's own lines leave nothing but complete commands. -/
theorem read_lines {lines : List String} (h : ∀ line ∈ lines, isLine line.toList = true) :
    ∃ later, (fresh [] : Reader Line).read dialect (lines.flatMap own) = fresh later := by
  induction lines with
  | nil => exact ⟨[], rfl⟩
  | cons line lines ih =>
    have ⟨first, hfirst⟩ := @read_line Line dialect _ (h line List.mem_cons_self)
    have ⟨later, hrest⟩ := ih fun other hother ↦ h other (List.mem_cons_of_mem line hother)
    refine ⟨first ++ later, ?_⟩
    rw [List.flatMap_cons, read_append, own, hfirst, read_fresh, hrest]
    rfl

/-! ## What begins a line -/

/-- What holds after each of the things a step consists of holds after the step. -/
theorem step_rule {holds : Reader Line → Prop}
    (hmode : ∀ r mode, holds r → holds { r with mode := mode })
    (hpush : ∀ r mode piece, holds r → holds (r.push mode piece))
    (hfinish : ∀ r, holds r → holds (r.finish dialect))
    (hdrop : ∀ r, holds r → holds { r with mode := .blank, token := [] })
    (haim : ∀ r, holds r → holds r.aim) (hclose : ∀ r, holds r → holds r.close)
    (hbegin : ∀ r, holds r → holds (r.begin g)) (h : holds r) : holds (r.step dialect g) := by
  have henter : ∀ r : Reader Line, ∀ inWord, holds r → holds (r.enter g inWord) := by
    intro r inWord h
    unfold enter
    split
    · exact hmode r _ h
    · exact hmode r _ h
    · exact hmode r _ h
    · exact hmode r _ h
    · exact hmode r _ h
    · exact hpush r _ _ h
  have hnumber : ∀ r : Reader Line, holds r → holds (r.finishNumber dialect) := by
    intro r h
    unfold finishNumber
    split
    · split_ifs
      · exact hdrop r h
      · exact hfinish r h
    · exact h
  have hbare : ∀ r : Reader Line, holds r → holds (r.bare dialect g) := by
    intro r h
    unfold bare
    split_ifs
    · exact hfinish r h
    · exact hmode r _ h
    · exact hclose _ (hfinish r h)
    · exact hmode r _ h
    · exact haim _ (hnumber r h)
    · exact hmode r _ h
    · exact henter _ _ (hbegin r h)
  have hbetween : ∀ r : Reader Line, holds r → holds (r.between g) := by
    intro r h
    unfold between
    split
    · exact hmode r _ h
    · exact hmode r _ h
    · exact hmode r _ h
    · exact hmode r _ h
    · exact hpush r _ _ h
  have hresume : ∀ quoted piece, holds (r.resume dialect g quoted piece) := by
    intro quoted piece
    cases quoted with
    | true => exact hbetween _ (hpush r _ piece h)
    | false => exact hbare _ (hpush r _ piece h)
  unfold step
  split
  · exact hbare r h
  · exact hbare r h
  · split_ifs
    · exact hmode r _ h
    · exact hpush r _ _ h
  · exact hbetween r h
  · split_ifs
    · exact hmode r _ h
    · exact hmode r _ h
    · exact hpush r _ _ h
  · split_ifs
    · exact hpush r _ _ h
    · exact hmode r _ h
    · exact hpush _ _ _ (hpush r _ _ h)
  · split_ifs
    · exact hmode r _ h
    · exact hmode r _ h
    · exact hmode r _ h
    · exact hpush r _ _ h
    · exact hresume _ _
  · split_ifs
    · exact hmode r _ h
    · exact hresume _ _
  · split_ifs
    · exact hpush r _ _ h
    · exact hmode r _ h
  · split_ifs
    · exact hmode r _ h
    · exact hclose _ (hfinish _ (hmode r _ h))
    · exact h
  · split_ifs
    · exact hmode r _ h
    · exact h
    · exact hbare _ (hmode r _ h)
  · exact h

/-- No command begins with a line. -/
def NotBegun (line : Line) (r : Reader Line) : Prop :=
  r.line ≠ some line ∧ ∀ command ∈ r.commands, command.line ≠ some line

variable {line : Line}

/-- Only the first word of a line begins it. -/
theorem step_notBegun (hg : g.line? ≠ some line) (h : r.NotBegun line) :
    (r.step dialect g).NotBegun line := by
  refine step_rule ?_ ?_ ?_ ?_ ?_ ?_ ?_ h
  · exact fun _ _ h ↦ h
  · exact fun _ _ _ h ↦ h
  · intro r h
    unfold finish
    split
    · split_ifs <;> exact h
    · exact h
  · exact fun _ h ↦ h
  · intro r h
    unfold aim
    split <;> exact h
  · intro r h
    unfold close
    split
    · exact h
    · refine ⟨fun h ↦ (nomatch h), fun command hcommand ↦ ?_⟩
      match List.mem_append.mp hcommand with
      | .inl hearlier => exact h.2 command hearlier
      | .inr hlast =>
        rw [List.mem_singleton.mp hlast]
        exact h.1
  · intro r h
    unfold begin
    split
    · exact ⟨hg, h.2⟩
    · exact h

theorem read_notBegun {text : List (Glyph Line)} (htext : ∀ g ∈ text, g.line? ≠ some line)
    (h : r.NotBegun line) : (r.read dialect text).NotBegun line := by
  induction text generalizing r with
  | nil => exact h
  | cons g text ih =>
    exact ih (fun other hother ↦ htext other (List.mem_cons_of_mem g hother))
      (step_notBegun (htext g List.mem_cons_self) h)

/-! ## Literal text -/

/-- Inert text between quotes goes into the word. -/
theorem read_inert (hmode : r.mode = .single ∨ r.mode = .double) {text : List (Glyph Line)}
    (htext : ∀ g ∈ text, isInert g.char = true) :
    r.read dialect text = { r with token := r.token ++ text.map (Glyph.piece true) } := by
  induction text generalizing r with
  | nil => simp
  | cons g text ih =>
    have hg := htext g List.mem_cons_self
    simp only [isInert, List.contains_cons, List.contains_nil, Bool.or_false, Bool.not_or,
      Bool.and_eq_true, Bool.not_eq_true', beq_eq_false_iff_ne, ne_eq] at hg
    have hstep : r.step dialect g = { r with token := r.token ++ [g.piece true] } := by
      match hmode with
      | .inl hsingle =>
        rw [step, hsingle]
        simp only [beq_iff_eq, hg, if_false, push]
        rfl
      | .inr hdouble =>
        rw [step, hdouble]
        simp only [between]
        split
        · next heq => exact absurd heq hg.2.1
        · next heq => exact absurd heq hg.2.2.1
        · next heq => exact absurd heq hg.2.2.2.1
        · next heq => exact absurd heq hg.2.2.2.2
        · rfl
    rw [read_cons, hstep, ih (by exact hmode) fun other hother ↦
      htext other (List.mem_cons_of_mem g hother)]
    simp

/-- A dollar sign which opens nothing is a character of the word. -/
def settled (r : Reader Line) : Reader Line :=
  match r.mode with
  | .dollar quoted value => r.push (context quoted) ⟨.char '$', quoted, value⟩
  | _ => r

@[simp] theorem settled_target : r.settled.target = r.target := by
  unfold settled
  split <;> rfl

@[simp] theorem settled_commands : r.settled.commands = r.commands := by
  unfold settled
  split <;> rfl

@[simp] theorem settled_words : r.settled.words = r.words := by
  unfold settled
  split <;> rfl

theorem step_settled (h : ∀ quoted value, r.mode = .dollar quoted value →
    opens quoted g.char = false) : r.settled.step dialect g = r.step dialect g := by
  have ⟨mode, token, target, line, words, commands⟩ := r
  cases mode with
  | dollar quoted value =>
    have hopens := h quoted value rfl
    simp only [step, settled, push, hopens, Bool.false_eq_true, if_false]
    cases quoted <;> rfl
  | _ => rfl

/-- A character which is not active goes into the word, a dollar sign at the latest with the next
character. -/
theorem settled_step {quoted : Bool} (hmode : r.mode = context quoted)
    (h : isActive quoted g.char = false) :
    (r.step dialect g).settled = { r with token := r.token ++ [g.piece quoted] } ∧
      (r.step dialect g).mode =
        if g.char = '$' then .dollar quoted g.isValue else context quoted := by
  have ⟨mode, token, target, line, words, commands⟩ := r
  simp only [isActive, List.contains_cons, List.contains_nil, Bool.or_false, Bool.or_eq_false_iff,
    beq_eq_false_iff_ne, ne_eq, Bool.and_eq_false_iff, Bool.not_eq_false'] at h
  simp only at hmode
  rw [hmode]
  cases quoted with
  | true =>
    simp only [step, context, between, if_true]
    split
    · next heq => exact absurd heq h.1.1
    · next heq => exact absurd heq h.1.2.1
    · next heq => simp [settled, push, context, Glyph.piece, heq]
    · next heq => exact absurd heq h.1.2.2
    · next hdollar _ =>
      simp [settled, push, Glyph.piece]
      exact hdollar
  | false =>
    have hbare := h.2.resolve_left Bool.false_ne_true
    simp only [step, context, bare, hbare, begin, enter, Bool.false_eq_true, if_false,
      reduceCtorEq, beq_iff_eq, Bool.and_eq_true, and_false]
    split
    · next heq => exact absurd heq h.1.2.1
    · next heq => exact absurd heq hbare.2
    · next heq => exact absurd heq h.1.1
    · next heq => simp [settled, push, context, Glyph.piece, heq]
    · next heq => exact absurd heq h.1.2.2
    · next hdollar _ =>
      simp [settled, push, Glyph.piece]
      exact hdollar

/-- Literal text goes into the word. -/
theorem read_literal {quoted : Bool} {text : List (Glyph Line)}
    (hpending : ∀ other value, r.mode = .dollar other value →
      text.head?.any (fun g ↦ opens other g.char) = false)
    (hmode : r.settled.mode = context quoted)
    (h : literal quoted (text.map Glyph.char) = true) :
    (r.read dialect text).settled =
      { r.settled with token := r.settled.token ++ text.map (Glyph.piece quoted) } := by
  induction text generalizing r with
  | nil => simp only [read_nil, List.map_nil, List.append_nil]
  | cons g text ih =>
    rw [List.map_cons, literal, Bool.and_eq_true, Bool.and_eq_true, Bool.not_eq_true',
      Bool.not_eq_true', List.head?_map, Option.any_map] at h
    have hsettled : r.settled.step dialect g = r.step dialect g := step_settled hpending
    have hboth := @settled_step Line dialect r.settled g quoted hmode h.1.1
    rw [hsettled] at hboth
    have ⟨hstep, hdollar⟩ := hboth
    have hrest := ih (r := r.step dialect g) ?_ (by rw [hstep]; exact hmode) h.2
    · rw [read_cons, hrest, hstep]
      simp
    · intro other value hmode
      rw [hdollar] at hmode
      split_ifs at hmode with hchar
      · rw [← (Mode.dollar.inj hmode).1]
        simpa [hchar] using h.1.2
      · cases quoted <;> exact nomatch hmode

/-- A blank separates literal texts. -/
theorem literal_append_space {front back : List Char} :
    literal true (front ++ ' ' :: back) = (literal true front && literal true back) := by
  induction front with
  | nil =>
    rw [List.nil_append, literal]
    rfl
  | cons c front ih =>
    rw [List.cons_append, literal, literal, ih]
    match front with
    | [] => cases (c == '$') <;> simp [opens, isNameStart, isSpecial, literal]
    | d :: front => simp [Bool.and_assoc]

/-- What stands for itself outside of quotes does so between double quotes. -/
theorem literal_true_of_false {text : List Char} (h : literal false text = true) :
    literal true text = true := by
  have hopens : ∀ c, opens true c = true → opens false c = true := by
    intro c hc
    unfold opens at hc ⊢
    rw [Bool.not_true, Bool.false_and, Bool.or_false] at hc
    rw [hc, Bool.true_or]
  induction text with
  | nil => rfl
  | cons c text ih =>
    rw [literal, Bool.and_eq_true, Bool.and_eq_true, Bool.not_eq_true', Bool.not_eq_true'] at h ⊢
    have ⟨⟨hactive, hdollar⟩, hrest⟩ := h
    refine ⟨⟨?_, ?_⟩, ih hrest⟩
    · rw [isActive, Bool.or_eq_false_iff] at hactive ⊢
      exact ⟨hactive.1, rfl⟩
    · rw [Bool.and_eq_false_iff] at hdollar ⊢
      refine hdollar.imp_right fun hhead ↦ ?_
      match text with
      | [] => rfl
      | d :: _ => exact Bool.eq_false_iff.mpr fun hd ↦ Bool.eq_false_iff.mp hhead (hopens d hd)

/-! ## Words between blanks -/

/-- Within a command, before the next word. -/
structure Ready (r : Reader Line) : Prop where
  blank : r.mode = .blank
  token : r.token = []
  target : r.target = false
  words : r.words ≠ []

/-- Words are appended to a command. -/
def append (words : List Word) (r : Reader Line) : Reader Line := { r with words := r.words ++ words }

theorem Ready.append (h : r.Ready) (words : List Word) : (r.append words).Ready where
  blank := h.blank
  token := h.token
  target := h.target
  words := List.append_ne_nil_of_left_ne_nil h.words words

/-- A text is read as words of a command when a blank follows. -/
def Appends (dialect : Dialect) (text : List (Glyph Line)) (words : List Word) : Prop :=
  ∀ r : Reader Line, r.Ready → r.read dialect (text ++ own " ") = r.append words

theorem appends_nil : Appends dialect ([] : List (Glyph Line)) [] := by
  intro r h
  have ⟨mode, token, target, line, words, commands⟩ := r
  have hmode := h.blank
  simp only at hmode
  rw [hmode]
  simp [own, step, bare, isBlank, finish, Reader.append]

theorem Appends.append {first second : List (Glyph Line)} {before behind : List Word}
    (hfirst : Appends dialect first before) (hsecond : Appends dialect second behind) :
    Appends dialect (first ++ own " " ++ second) (before ++ behind) := by
  intro r h
  rw [List.append_assoc, read_append, hfirst r h, hsecond _ (h.append before), Reader.append,
    Reader.append, Reader.append, List.append_assoc]

/-- A word is not expanded. -/
def Fixed (dialect : Dialect) (word : Word) : Prop :=
  (word.any Piece.value && dialect.expands word.look) = false

/-- Behind a word, a blank ends it. -/
theorem step_space_finish (hmode : r.settled.mode = .word) :
    r.step dialect ⟨' ', .own⟩ = r.settled.finish dialect := by
  have hopens : ∀ quoted value, r.mode = .dollar quoted value → opens quoted ' ' = false := by
    intro quoted _ _
    cases quoted <;> decide
  rw [← step_settled (g := ⟨' ', .own⟩) hopens, step, hmode]
  rfl

theorem step_space (hmode : r.settled.mode = .word) (htarget : r.target = false)
    (hfixed : Fixed dialect r.settled.token) :
    r.step dialect ⟨' ', .own⟩ =
      { r.settled with mode := .blank, token := [], words := r.words ++ [r.settled.token] } := by
  rw [step_space_finish hmode, finish, hmode]
  simp only
  rw [hfixed, settled_target, htarget, settled_words]
  rfl

/-- Between words, a character which is not active begins the next one. -/
theorem step_blank (h : r.Ready) (hactive : isActive false g.char = false) (hhash : g.char ≠ '#') :
    r.step dialect g = { r with mode := .word : Reader Line }.step dialect g := by
  have ⟨mode, token, target, line, words, commands⟩ := r
  have hmode := h.blank
  simp only at hmode
  subst hmode
  simp only [isActive, List.contains_cons, List.contains_nil, Bool.or_false, Bool.or_eq_false_iff,
    beq_eq_false_iff_ne, ne_eq, Bool.and_eq_false_iff, Bool.not_eq_false'] at hactive
  have hbare := hactive.2.resolve_left Bool.false_ne_true
  have ⟨first, rest, hwords⟩ := List.exists_cons_of_ne_nil h.words
  simp only at hwords
  subst hwords
  simp only [step, bare, hbare, begin, hhash, Bool.false_eq_true, if_false, beq_iff_eq,
    Bool.and_eq_true, false_and]
  unfold enter
  split
  · next heq => exact absurd heq hactive.1.2.1
  all_goals rfl

section Literal

variable {text : List (Glyph Line)} (hne : text ≠ []) (hhash : ∀ g ∈ text.head?, g.char ≠ '#')
  (hliteral : literal false (text.map Glyph.char) = true)

include hne hhash hliteral

/-- A literal text is read as a word. -/
theorem Ready.read_literal (h : r.Ready) :
    (r.read dialect text).settled =
      { r with mode := .word, token := text.map (Glyph.piece false) } := by
  have ⟨g, rest, htext⟩ := List.exists_cons_of_ne_nil hne
  have hactive : isActive false g.char = false := by
    rw [htext, List.map_cons, literal, Bool.and_eq_true, Bool.and_eq_true, Bool.not_eq_true']
      at hliteral
    exact hliteral.1.1
  have hbegin : r.read dialect text = { r with mode := .word : Reader Line }.read dialect text := by
    rw [htext, read_cons, step_blank h hactive (hhash g (by rw [htext]; rfl))]
    rfl
  have hword : ∀ quoted value,
      ({ r with mode := .word } : Reader Line).mode ≠ .dollar quoted value := by simp
  rw [hbegin,
    Reader.read_literal (fun other value hmode ↦ absurd hmode (hword other value)) rfl hliteral]
  change ({ r with mode := .word, token := r.token ++ _ } : Reader Line) = _
  rw [h.token, List.nil_append]

/-- A literal text is a word by itself. -/
theorem appends_literal (hfixed : Fixed dialect (text.map (Glyph.piece false))) :
    Appends dialect text [text.map (Glyph.piece false)] := by
  intro r h
  have hread : (r.read dialect text).settled =
      { r with mode := .word, token := text.map (Glyph.piece false) } :=
    h.read_literal hne hhash hliteral
  have htarget : (r.read dialect text).target = false := by
    rw [← settled_target, hread]
    exact h.target
  have hwords : (r.read dialect text).words = r.words := by
    rw [← settled_words, hread]
  rw [read_append, read_space, step_space (by rw [hread]) htarget (by rw [hread]; exact hfixed),
    hread, hwords, append]
  change ({ r with mode := .blank, token := [], words := _ } : Reader Line) = _
  rw [← h.blank, ← h.token]

end Literal

end Reader

end IsvValidation.Library.Shell
