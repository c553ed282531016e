import Mathlib.Data.List.Basic

/-!
# How a shell reads a script

A shell reads a script character by character and cuts it into commands of words. Quotes take away
the meaning of the characters between them, a dollar sign brings in the value of a parameter, and an
unquoted separator ends the command. Every character comes with its origin, so that it can be told
whether a text which was pasted into the script is expanded or executed. Grammar above the simple
command is not read: reserved words count as words.
-/

namespace IsvValidation.Library.Shell

/-- Where a character comes from: the script's own text, the word with which one of its lines begins,
or a value which was pasted in. -/
inductive Origin (Line : Type) where
  | own
  | first (line : Line)
  | value
  deriving DecidableEq

structure Glyph (Line : Type) where
  char : Char
  origin : Origin Line
  deriving DecidableEq

namespace Glyph

variable {Line : Type}

def isValue (g : Glyph Line) : Bool :=
  match g.origin with
  | .value => true
  | _ => false

def line? (g : Glyph Line) : Option Line :=
  match g.origin with
  | .first line => some line
  | _ => none

end Glyph

/-! ## Words and commands -/

/-- What a part of a word stands for. -/
inductive Shown where
  | char (c : Char)
  | parameter (name : List Char)
  deriving DecidableEq

/-- A part of a word: whether it is quoted, and whether it was pasted in. -/
structure Piece where
  shown : Shown
  quoted : Bool
  value : Bool := false
  deriving DecidableEq

abbrev Word := List Piece

/-- The word as the command receives it. -/
def Word.shown (word : Word) : List Shown := word.map Piece.shown

def Word.look (word : Word) : List (Shown × Bool) := word.map fun piece ↦ (piece.shown, piece.quoted)

/-- Characters on account of which a word may be expanded to file names, home directories or
alternatives. -/
def patternChars : List Char := ['*', '?', '[', '~', '\x7b']

/-- What words a shell expands apart from parameters and substitutions: none without an unquoted
pattern character. -/
structure Dialect where
  expands : List (Shown × Bool) → Bool
  plain : ∀ word, (∀ c ∈ patternChars, (.char c, false) ∉ word) → expands word = false

/-- A shell which expands no words. -/
def Dialect.never : Dialect := ⟨fun _ ↦ false, fun _ _ ↦ rfl⟩

/-- A command, with the line of the script which it begins. -/
structure Command (Line : Type) where
  line : Option Line
  words : List Word
  deriving DecidableEq

/-! ## The reader -/

/-- What the reader is in: between words, in a word, in quotes, behind a backslash, behind a dollar
sign, in the name of a parameter, in a comment, behind the sign of a redirection. It is lost once a
pasted text is expanded or executed, and at a command substitution. -/
inductive Mode where
  | blank
  | word
  | single
  | double
  | escape (inWord : Bool)
  | doubleEscape (value : Bool)
  | dollar (quoted value : Bool)
  | name (quoted : Bool) (text : List Char)
  | braced (quoted : Bool) (text : List Char)
  | comment
  | angle
  | lost
  deriving DecidableEq

structure Reader (Line : Type) where
  mode : Mode := .blank
  token : Word := []
  target : Bool := false
  line : Option Line := none
  words : List Word := []
  commands : List (Command Line) := []
  deriving DecidableEq

def isBlank (c : Char) : Bool := c == ' ' || c == '\t'

/-- Characters which end a command. -/
def separates (c : Char) : Bool := ['\n', ';', '&', '|', '(', ')'].contains c

def isAngle (c : Char) : Bool := c == '<' || c == '>'

def isNameStart (c : Char) : Bool := c.isAlpha || c == '_'

def isNameChar (c : Char) : Bool := c.isAlphanum || c == '_'

/-- Parameters with names of one character which is no letter. -/
def isSpecial (c : Char) : Bool := c.isDigit || ['@', '*', '#', '?', '-', '$', '!'].contains c

/-- A dollar sign before this character opens an expansion, or a quote of its own kind. -/
def opens (quoted : Bool) (c : Char) : Bool :=
  isNameStart c || isSpecial c || c == '\x7b' || c == '(' || (!quoted && (c == '\'' || c == '"'))

namespace Reader

variable {Line : Type} (dialect : Dialect) (r : Reader Line) (g : Glyph Line)

/-- Nothing but commands which are complete. -/
def fresh (commands : List (Command Line)) : Reader Line := { commands := commands }

def lose : Reader Line := { r with mode := .lost }

def push (mode : Mode) (piece : Piece) : Reader Line :=
  { r with mode := mode, token := r.token ++ [piece] }

/-- The first word of a command begins. -/
def begin : Reader Line :=
  match r.mode, r.words with
  | .blank, [] => { r with line := g.line? }
  | _, _ => r

/-- A word ends. The target of a redirection is no argument. -/
def finish : Reader Line :=
  match r.mode with
  | .word =>
    if r.token.any Piece.value && dialect.expands r.token.look then r.lose
    else if r.target then { r with mode := .blank, token := [], target := false }
    else { r with mode := .blank, token := [], words := r.words ++ [r.token] }
  | _ => r

/-- The words which were read are a command, unless the reader is lost. -/
def close : Reader Line :=
  match r.mode with
  | .lost => r
  | _ => fresh (r.commands ++ [⟨r.line, r.words⟩])

def endCommand : Reader Line := (r.finish dialect).close

/-- The number in front of the sign of a redirection. -/
def isNumber (word : Word) : Bool :=
  word.all fun piece ↦
    match piece.shown, piece.quoted with
    | .char c, false => c.isDigit
    | _, _ => false

/-- A word ends at the sign of a redirection. -/
def finishNumber : Reader Line :=
  match r.mode with
  | .word => if isNumber r.token then { r with mode := .blank, token := [] } else r.finish dialect
  | _ => r

def aim : Reader Line :=
  match r.mode with
  | .lost => r
  | _ => { r with mode := .angle, target := true }

def redirect : Reader Line := (r.finishNumber dialect).aim

/-- A character of a word outside of quotes. -/
def enter (inWord : Bool) : Reader Line :=
  match g.char with
  | '\\' => { r with mode := .escape inWord }
  | '\'' => { r with mode := .single }
  | '"' => { r with mode := .double }
  | '$' => { r with mode := .dollar false g.isValue }
  | '`' => r.lose
  | c => r.push .word ⟨.char c, false, g.isValue⟩

/-- Outside of quotes. -/
def bare : Reader Line :=
  if isBlank g.char then r.finish dialect
  else if separates g.char then if g.isValue then r.lose else r.endCommand dialect
  else if isAngle g.char then if g.isValue then r.lose else r.redirect dialect
  else if g.char == '#' && r.mode == .blank then { r with mode := .comment }
  else (r.begin g).enter g (r.mode == .word)

/-- Between double quotes. -/
def between : Reader Line :=
  match g.char with
  | '"' => { r with mode := .word }
  | '\\' => { r with mode := .doubleEscape g.isValue }
  | '$' => { r with mode := .dollar true g.isValue }
  | '`' => r.lose
  | c => r.push .double ⟨.char c, true, g.isValue⟩

/-- The context in which a dollar sign stands. -/
def context (quoted : Bool) : Mode := if quoted then .double else .word

/-- Read a character in the context of a dollar sign, after a piece. -/
def resume (quoted : Bool) (piece : Piece) : Reader Line :=
  let next := r.push (context quoted) piece
  if quoted then next.between g else next.bare dialect g

def step : Reader Line :=
  match r.mode with
  | .blank | .word => r.bare dialect g
  | .single =>
    if g.char == '\'' then { r with mode := .word }
    else r.push .single ⟨.char g.char, true, g.isValue⟩
  | .double => r.between g
  | .escape inWord =>
    if g.char == '\n' then { r with mode := if inWord then .word else .blank }
    else r.push .word ⟨.char g.char, true, g.isValue⟩
  | .doubleEscape value =>
    if ['$', '`', '"', '\\'].contains g.char then r.push .double ⟨.char g.char, true, g.isValue⟩
    else if g.char == '\n' then { r with mode := .double }
    else (r.push .double ⟨.char '\\', true, value⟩).push .double ⟨.char g.char, true, g.isValue⟩
  | .dollar quoted value =>
    if opens quoted g.char then
      if value || !(isNameStart g.char || isSpecial g.char || g.char == '\x7b') then r.lose
      else if isNameStart g.char then { r with mode := .name quoted [g.char] }
      else if g.char == '\x7b' then { r with mode := .braced quoted [] }
      else r.push (context quoted) ⟨.parameter [g.char], quoted, false⟩
    else r.resume dialect g quoted ⟨.char '$', quoted, value⟩
  | .name quoted text =>
    if isNameChar g.char then { r with mode := .name quoted (text ++ [g.char]) }
    else r.resume dialect g quoted ⟨.parameter text, quoted, false⟩
  | .braced quoted text =>
    if g.char == '\x7d' then r.push (context quoted) ⟨.parameter text, quoted, false⟩
    else { r with mode := .braced quoted (text ++ [g.char]) }
  | .comment =>
    if g.char == '\n' then
      if g.isValue then r.lose else { r with mode := .blank : Reader Line }.endCommand dialect
    else r
  | .angle =>
    if isAngle g.char || g.char == '&' || g.char == '|' then if g.isValue then r.lose else r
    else { r with mode := .blank : Reader Line }.bare dialect g
  | .lost => r

/-- Read a text. -/
def read (text : List (Glyph Line)) : Reader Line := text.foldl (step dialect) r

end Reader

/-! ## Literal text -/

/-- Characters which mean something by themselves. -/
def isActive (quoted : Bool) (c : Char) : Bool :=
  ['"', '\\', '`'].contains c ||
    (!quoted && (isBlank c || separates c || isAngle c || c == '\''))

/-- A text which stands for itself: no active character, and no dollar sign which opens something. -/
def literal (quoted : Bool) : List Char → Bool
  | [] => true
  | c :: rest =>
    !isActive quoted c && !(c == '$' && rest.head?.any (opens quoted)) && literal quoted rest

/-- A text which is read as the word it is outside of quotes. -/
def IsPlain (dialect : Dialect) (text : List Char) : Prop :=
  literal false text = true ∧ dialect.expands (text.map fun c ↦ (.char c, false)) = false

instance (dialect : Dialect) (text : List Char) : Decidable (IsPlain dialect text) :=
  inferInstanceAs (Decidable (_ ∧ _))

/-- Characters which are literal in every kind of quotes. -/
def isInert (c : Char) : Bool := !(['\'', '"', '\\', '$', '`'].contains c)

/-! ## Texts with their origins -/

section Texts

variable {Line : Type}

def Glyph.piece (quoted : Bool) (g : Glyph Line) : Piece := ⟨.char g.char, quoted, g.isValue⟩

def own (text : String) : List (Glyph Line) := text.toList.map fun c ↦ ⟨c, .own⟩

def first (line : Line) (text : String) : List (Glyph Line) := text.toList.map fun c ↦ ⟨c, .first line⟩

def value (text : List Char) : List (Glyph Line) := text.map fun c ↦ ⟨c, .value⟩

end Texts

end IsvValidation.Library.Shell
