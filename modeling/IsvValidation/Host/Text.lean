import Mathlib.Data.List.DropRight
import IsvValidation.Config.Value

/-!
# Python's string operations and shell tokenisation

The string methods which the executor and the resolver call, on the characters of a string, and
`shlex.split` as the state machine of `shlex.read_token` in POSIX mode with `whitespace_split`.
-/

namespace IsvValidation.Host

open Config

/-- What is said of the characters of a text is decided along the text. -/
instance decidableForallMem (p : Char → Prop) [DecidablePred p] (chars : List Char) :
    Decidable (∀ c ∈ chars, p c) := List.decidableBAll p chars

/-- Tables of the Unicode database which `str.lower`, `str.strip` and the regular expression class
`\w` read. -/
structure Unicode where
  lower : String → String
  isSpace : Char → Bool
  isAlnum : Char → Bool

namespace Unicode

def strip (unicode : Unicode) (text : String) : String :=
  .ofList ((text.toList.dropWhile unicode.isSpace).rdropWhile unicode.isSpace)

def isWord (unicode : Unicode) (c : Char) : Bool := unicode.isAlnum c || c == '_'

end Unicode

namespace Text

/-- `part in text`. -/
def contains (text part : String) : Bool := decide (part.toList <:+: text.toList)

def startsWith (text start : String) : Bool := start.toList.isPrefixOf text.toList

/-- Whether a string holds both template markers. -/
def isTemplate (text : String) : Bool := contains text "\x7b\x7b" && contains text "\x7d\x7d"

/-- `text.split(separator)`. -/
def split (separator : Char) (text : String) : List String :=
  (text.toList.splitOn separator).map String.ofList

def lineBoundaries : List Char :=
  ['\n', '\r', '\x0b', '\x0c', '\x1c', '\x1d', '\x1e', '\x85', '\u2028', '\u2029']

/-- `text.splitlines()`; a carriage return and the newline after it end one line. -/
def splitlines (text : String) : List String := go [] text.toList
where
  go (line : List Char) : List Char → List String
    | [] => if line.isEmpty then [] else [.ofList line]
    | '\r' :: '\n' :: rest => .ofList line :: go [] rest
    | c :: rest =>
      if lineBoundaries.contains c then .ofList line :: go [] rest else go (line ++ [c]) rest

/-- The components of a path; `pathlib` drops empty ones and single dots. -/
def pathParts (path : String) : List String :=
  (split '/' path).filter fun part ↦ part != "" && part != "."

/-- `Path(path).name`. -/
def pathName (path : String) : String := (pathParts path).getLast?.getD ""

def isAbsolute (path : String) : Bool := startsWith path "/"

end Text

/-! ## Shell words -/

namespace Shlex

/-- The lexer's state: between words, in a word, between quotes, or after a backslash, which
returns to the word or to the quotes it stands in. -/
inductive Mode where
  | blank
  | word
  | quote (mark : Char)
  | escape (back : Option Char)
  deriving DecidableEq

structure Lexer where
  mode : Mode := .blank
  token : List Char := []
  quoted : Bool := false
  words : List String := []

def isBlank (c : Char) : Bool := c == ' ' || c == '\t' || c == '\r' || c == '\n'

def isQuote (c : Char) : Bool := c == '\'' || c == '"'

/-- A token ends; an empty one counts only when it was quoted. -/
def emit (lexer : Lexer) : Lexer :=
  if lexer.token.isEmpty && !lexer.quoted then { lexer with mode := .blank }
  else { words := lexer.words ++ [.ofList lexer.token] }

/-- Read one character. -/
def step (lexer : Lexer) (c : Char) : Lexer :=
  match lexer.mode with
  | .blank | .word =>
    if isBlank c then emit lexer
    else if c == '\\' then { lexer with mode := .escape none }
    else if isQuote c then { lexer with mode := .quote c }
    else { lexer with mode := .word, token := lexer.token ++ [c] }
  | .quote mark =>
    if c == mark then { lexer with mode := .word, quoted := true }
    else if c == '\\' && mark == '"' then
      { lexer with mode := .escape (some mark), quoted := true }
    else { lexer with token := lexer.token ++ [c], quoted := true }
  | .escape none => { lexer with mode := .word, token := lexer.token ++ [c] }
  | .escape (some mark) =>
    -- between quotes a backslash escapes only itself and the quote
    let kept := if c == '\\' || c == mark then [c] else ['\\', c]
    { lexer with mode := .quote mark, token := lexer.token ++ kept }

/-- `shlex.split(text)`. -/
def split (text : String) : Except PyError (List String) :=
  let lexer := text.toList.foldl step {}
  match lexer.mode with
  | .quote _ => .error (.valueError "No closing quotation")
  | .escape _ => .error (.valueError "No escaped character")
  | _ => .ok (emit lexer).words

/-- Neither a quote nor a backslash. -/
def isPlain (c : Char) : Bool := !isQuote c && c != '\\'

example : split "a 'b c' \"d\\\"e\" f\\ g ''" = .ok ["a", "b c", "d\"e", "f g", ""] := rfl

example : split "bad ' quote" = .error (.valueError "No closing quotation") := rfl

end Shlex

end IsvValidation.Host
