import IsvValidation.Host.Matching
import IsvValidation.Library.Substitution
import IsvValidation.Redaction.SensitiveArgs

/-!
# Secrets in free text

Step outputs are redacted by their structure: what stands under a sensitive key is replaced as a
whole. Error messages and reports are redacted by patterns over their text. To compare both, a value
is written with marks: every character of a string which is to be hidden carries the string and the
key it stands under, and the patterns work on marked texts as they do on plain ones.
-/

namespace IsvValidation.Redaction

open Host Library

/-! ## Sensitive keys -/

/-- `SENSITIVE_KEY_PATTERNS`; each pattern by its words. -/
def sensitiveKeyPatterns : List (List String) :=
  [["secret", "access", "key"], ["access", "key", "id"], ["secret", "key"], ["account", "key"],
    ["subscription", "key"], ["connection", "string"], ["sas", "token"], ["signing", "key"],
    ["password"], ["api", "key"], ["private", "key"], ["auth", "token"], ["session", "token"],
    ["client", "secret"], ["credential", "secret"], ["access", "token"], ["refresh", "token"],
    ["bearer", "token"]]

section Patterns

variable (table : CaseTable) (data : WordData) {α : Type} (look : α → Char)

/-- A word of a pattern, spelled in any case. -/
def spelling (word : String) : Pattern α (List α) :=
  .word (word.toList.map fun p c ↦ table.fold (look c) == table.fold p)

/-- Words with `[-_]?` between them. -/
def spellings : List String → Pattern α (List α)
  | [] => pure []
  | [last] => spelling table look last
  | first :: rest => do
    let start ← spelling table look first
    let joint ← Pattern.optional (.one fun c ↦ look c == '-' || look c == '_')
    let others ← spellings rest
    return start ++ joint.toList ++ others

/-- `_KEY_ALT`. -/
def keyAlt : Pattern α (List α) := .oneOf (sensitiveKeyPatterns.map (spellings table look))

/-- `is_sensitive_key`. -/
def isSensitiveKey (key : String) : Bool := (keyAlt table id).found key.toList

/-- `[\w-]`. -/
def isKeyChar (c : Char) : Bool := data.isWord c || c == '-'

/-- `[\w-]*(?:…)[\w-]*`. -/
def keyName : Pattern α (List α) := do
  let start ← Pattern.many fun c ↦ isKeyChar data (look c)
  let secret ← keyAlt table look
  let others ← Pattern.many fun c ↦ isKeyChar data (look c)
  return start ++ secret ++ others

/-- `_JSON_DOUBLE_QUOTE_RE` and `_JSON_SINGLE_QUOTE_RE`: a quoted key, a colon, and a quoted text. -/
def quotedPair (quote : Char) : Pattern α (List α) := do
  let _ ← Pattern.one fun c ↦ look c == quote
  let name ← keyName table data look
  let _ ← Pattern.one fun c ↦ look c == quote
  let _ ← Pattern.many fun c ↦ data.isSpace (look c)
  let _ ← Pattern.one fun c ↦ look c == ':'
  let _ ← Pattern.many fun c ↦ data.isSpace (look c)
  let _ ← Pattern.one fun c ↦ look c == quote
  let _ ← Pattern.many fun c ↦ look c != quote
  let _ ← Pattern.one fun c ↦ look c == quote
  return name

/-- `_KEY_VALUE_RE`, on characters with the ones before them. -/
def keyValue : Pattern (Option α × α) (List (Option α × α)) := do
  let _ ← Pattern.edge fun c ↦ data.isWord (look c)
  let name ← keyName table data fun c : Option α × α ↦ look c.2
  let _ ← Pattern.many fun c : Option α × α ↦ data.isSpace (look c.2)
  let _ ← Pattern.one fun c : Option α × α ↦ look c.2 == '='
  let _ ← Pattern.many fun c : Option α × α ↦ data.isSpace (look c.2)
  let _ ← Pattern.some fun c : Option α × α ↦ !data.isSpace (look c.2)
  return name

/-! ## The text path -/

variable (fresh : Char → α)

/-- What a quoted pair is replaced by. -/
def hiddenPair (quote : Char) (name : List α) : List α :=
  fresh quote :: name ++ ([quote, ':', ' ', quote] ++ redacted.toList ++ [quote]).map fresh

/-- What `key=value` is replaced by. -/
def hiddenValue (name : List (Option α × α)) : List (Option α × α) :=
  name ++ ('=' :: redacted.toList).map fun c ↦ (none, fresh c)

/-- `redact_text`, on characters which `look` reads and `fresh` makes. -/
def redactText (text : List α) : List α :=
  let result := (quotedPair table data look '"').sub (hiddenPair fresh '"') text
  let result := (quotedPair table data look '\'').sub (hiddenPair fresh '\'') result
  ((keyValue table data look).sub (hiddenValue fresh) (Pattern.withPrevious none result)).map Prod.snd

end Patterns

/-! ## The path over the structure -/

/-- A value of mappings, lists and strings. -/
inductive Output where
  | text (value : String)
  | list (items : List Output)
  | mapping (entries : List (String × Output))

section Structured

variable (table : CaseTable)

mutual

/-- `redact_dict`. -/
def redactDict : Output → Output
  | .text value => .text value
  | .list items => .list (redactItems items)
  | .mapping entries => .mapping (redactEntries entries)

def redactItems : List Output → List Output
  | [] => []
  | item :: rest => redactDict item :: redactItems rest

def redactEntries : List (String × Output) → List (String × Output)
  | [] => []
  | (key, value) :: rest =>
    (key, if isSensitiveKey table key then .text redacted else redactDict value) :: redactEntries rest

end

end Structured

/-! ## Writing a value -/

/-- A digit of `'{:04x}'.format`. -/
def hexDigit (digit : ℕ) : Char := Nat.digitChar digit

/-- The escape of a code unit. -/
def unitEscape (code : ℕ) : List Char :=
  ['\\', 'u', hexDigit (code / 4096 % 16), hexDigit (code / 256 % 16), hexDigit (code / 16 % 16),
    hexDigit (code % 16)]

/-- What `json.dumps` writes for a character; characters from 65536 on become surrogate pairs. -/
def escapeChar (c : Char) : List Char :=
  if c = '"' then ['\\', '"']
  else if c = '\\' then ['\\', '\\']
  else if c = '\n' then ['\\', 'n']
  else if c = '\r' then ['\\', 'r']
  else if c = '\t' then ['\\', 't']
  else if c = '\x0c' then ['\\', 'f']
  else if c = '\x08' then ['\\', 'b']
  else if 32 ≤ c.toNat ∧ c.toNat ≤ 126 then [c]
  else if c.toNat < 65536 then unitEscape c.toNat
  else unitEscape (55296 + (c.toNat - 65536) / 1024) ++ unitEscape (56320 + (c.toNat - 65536) % 1024)

def escape (text : List Char) : List Char := text.flatMap escapeChar

/-- The string a character is from, and the key it stands under unless it is an item of a list. -/
structure Source where
  holder : Option String
  value : String
  deriving DecidableEq

structure Marked where
  char : Char
  source : Option Source := none
  deriving DecidableEq

def Marked.fresh (c : Char) : Marked := ⟨c, none⟩

section Dumps

variable (hides : String → Bool)

/-- A string between quotes. -/
def quoted (source : Option Source) (text : List Char) : List Marked :=
  .fresh '"' :: (escape text).map (⟨·, source⟩) ++ [.fresh '"']

mutual

/-- `json.dumps`, with marks on the strings which stand under a key that hides them. -/
def dumps (hidden : Bool) (holder : Option String) : Output → List Marked
  | .text value => quoted (if hidden then some ⟨holder, value⟩ else none) value.toList
  | .list items =>
    .fresh '[' :: [Marked.fresh ',', .fresh ' '].intercalate (dumpsItems hidden items) ++ [.fresh ']']
  | .mapping entries =>
    .fresh '\x7b' :: [Marked.fresh ',', .fresh ' '].intercalate (dumpsEntries hidden entries) ++
      [.fresh '\x7d']

def dumpsItems (hidden : Bool) : List Output → List (List Marked)
  | [] => []
  | item :: rest => dumps hidden none item :: dumpsItems hidden rest

def dumpsEntries (hidden : Bool) : List (String × Output) → List (List Marked)
  | [] => []
  | (key, value) :: rest =>
    (quoted none key.toList ++ [.fresh ':', .fresh ' '] ++
      dumps (hidden || hides key) (some key) value) :: dumpsEntries hidden rest

end

end Dumps

end IsvValidation.Redaction
