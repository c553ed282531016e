import IsvValidation.Host.Matching
import IsvValidation.Orchestrator.StepExecutor

/-!
# Arguments with step references

An argument is a literal text with references `{{ steps.P }}` in it, each followed by more literal
text. What Jinja finds for a path is given from outside; what an argument should become follows the
keys of the path through the mappings of step outputs.
-/

namespace IsvValidation.Orchestrator

open Config Host Library

/-! ## Syntax -/

/-- The fallback in `default(…)`: how it is written, and what it prints. -/
structure Fallback where
  source : String
  printed : String

/-- A reference to a step output, with its blanks inside the braces. -/
structure Reference (data : WordData) where
  path : List String
  fallback : Option Fallback := none
  blanks : ℕ × ℕ := (1, 1)
  ne_nil : path ≠ []
  segments : ∀ segment ∈ path, segment ≠ "" ∧ ∀ c ∈ segment.toList, data.isWord c = true

namespace Reference

variable {data : WordData} (ref : Reference data)

/-- The path with its dots. -/
def dotted : List Char := ['.'].intercalate (ref.path.map String.toList)

def filterText : List Char :=
  match ref.fallback with
  | some fallback => " | default(".toList ++ fallback.source.toList ++ [')']
  | none => []

/-- The reference as it is written. -/
def chars : List Char :=
  ['\x7b', '\x7b'] ++ List.replicate ref.blanks.1 ' ' ++ ("steps.".toList ++ ref.dotted) ++
    ref.filterText ++ List.replicate ref.blanks.2 ' ' ++ ['\x7d', '\x7d']

end Reference

/-- A Jinja delimiter opens in a text. -/
def opensTemplate : List Char → Bool
  | '\x7b' :: c :: rest => c == '\x7b' || c == '%' || c == '#' || opensTemplate (c :: rest)
  | _ :: rest => opensTemplate rest
  | [] => false

/-- No delimiter opens in a literal text, nor where it meets the reference behind it. -/
def literalsPlain {data : WordData} (head : String) : List (Reference data × String) → Prop
  | [] => opensTemplate head.toList = false
  | (_, text) :: rest => opensTemplate (head.toList ++ ['\x7b']) = false ∧ literalsPlain text rest

/-- Literal text and references in turns. -/
structure Argument (data : WordData) where
  head : String
  tail : List (Reference data × String) := []
  plain : literalsPlain head tail

namespace Argument

variable {data : WordData} (arg : Argument data)

def chars : List Char :=
  arg.head.toList ++ arg.tail.flatMap fun item ↦ item.1.chars ++ item.2.toList

def text : String := .ofList arg.chars

def references : List (Reference data) := arg.tail.map Prod.fst

def hasDefault : Bool := arg.references.any fun ref ↦ ref.fallback.isSome

/-- The references without a default. -/
def required : List (Reference data) := arg.references.filter fun ref ↦ ref.fallback.isNone

end Argument

/-! ## What Jinja prints -/

/-- Literal text as Jinja prints it: every line ends with a newline only. -/
def literalLines : List Char → List Char
  | '\r' :: '\n' :: rest => '\n' :: literalLines rest
  | '\r' :: rest => '\n' :: literalLines rest
  | c :: rest => c :: literalLines rest
  | [] => []

/-- Jinja drops a newline at the end of a template. -/
def dropFinalNewline (text : List Char) : List Char :=
  if text.getLast? = some '\n' then text.dropLast else text

section Printed

variable {data : WordData} (find : List String → Option String)

/-- What is found, or else the default; what is undefined prints nothing. -/
def Reference.printed (ref : Reference data) : List Char :=
  ((find ref.path).getD ((ref.fallback.map Fallback.printed).getD "")).toList

def printedTail : List (Reference data × String) → List Char
  | [] => []
  | [(ref, text)] => ref.printed find ++ dropFinalNewline (literalLines text.toList)
  | (ref, text) :: rest => ref.printed find ++ literalLines text.toList ++ printedTail rest

def Argument.printed (arg : Argument data) : List Char :=
  literalLines arg.head.toList ++ printedTail find arg.tail

end Printed

/-- What is known of Jinja: unless it fails, it prints the literal text of an argument, and for a
reference what it finds. -/
def PrintsReferences {data : WordData} (host : Runtime) (context : Context)
    (find : List String → Option String) (args : List (Argument data)) : Prop :=
  ∀ arg ∈ args, arg.tail ≠ [] → ∀ result,
    host.jinja.renderLenient arg.text context.data = .ok result →
      result = .ofList (arg.printed find)

/-! ## What an argument should become -/

section Intended

variable {data : WordData} (host : Runtime) (context : Context)

/-- The value which a path leads to by keys. -/
def valueAtPath (steps : Value) (path : List String) : Option Value :=
  path.foldl (fun node part ↦ node.bind (·.get? part)) (some steps)

/-- A segment is missing, something on the way is no mapping, or the value is null or empty. -/
def Reference.unresolved (ref : Reference data) : Bool :=
  match valueAtPath context.steps ref.path with
  | none => true
  | some value => value.isNull || value.str? == some ""

/-- The value at the path, or else the default. -/
def Reference.intended (ref : Reference data) : List Char :=
  (((valueAtPath context.steps ref.path).map host.strOf).getD
    ((ref.fallback.map Fallback.printed).getD "")).toList

def Argument.intended (arg : Argument data) : List Char :=
  arg.head.toList ++ arg.tail.flatMap fun item ↦ item.1.intended host context ++ item.2.toList

/-- White space only. -/
def Blank (text : List Char) : Prop := ∀ c ∈ text, host.unicode.isSpace c = true

instance (text : List Char) : Decidable (Blank host text) :=
  inferInstanceAs (Decidable (∀ c ∈ text, host.unicode.isSpace c = true))

/-- The argument with its values, unless it is blank because of a default. -/
def Argument.outcome (arg : Argument data) : Option String :=
  if Blank host (arg.intended host context) ∧ arg.hasDefault = true then none
  else some (.ofList (arg.intended host context))

/-- Some reference without a default is unresolved. -/
def LacksReference (args : List (Argument data)) : Prop :=
  ∃ arg ∈ args, ∃ ref ∈ arg.required, ref.unresolved context = true

/-- A missing reference raises, and otherwise every argument becomes what it should, each in its own
place. -/
structure RendersHonestly (args : List (Argument data)) : Prop where
  raises : LacksReference context args →
    ∃ missing, renderArgs host context (args.map Argument.text) = .error missing
  renders : ¬ LacksReference context args →
    (args.map Argument.text).mapM (renderArg host context) =
      .ok (args.map fun arg ↦ arg.outcome host context)

end Intended

end IsvValidation.Orchestrator
