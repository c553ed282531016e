import Mathlib.Algebra.Group.Nat.Defs
import IsvValidation.Host.Text
import IsvValidation.Library.Pattern

/-!
# Character classes of regular expressions

The Unicode data behind `\d`, `\s` and `int()` with what it says of ASCII characters, the anchor `$`,
and numbers written in decimal digits.
-/

namespace IsvValidation.Host

open Library

/-- ASCII characters which `str.strip` and `\s` count as white space. -/
def asciiSpaces : List Char :=
  [' ', '\t', '\n', '\r', '\x0b', '\x0c', '\x1c', '\x1d', '\x1e', '\x1f']

/-- The tables of the Unicode database, with the value of a decimal digit. -/
structure UnicodeData extends Unicode where
  decimal : Char → Option ℕ
  asciiDecimal : ∀ c : Char, c.toNat < 128 →
    decimal c = if c.isDigit then some (c.toNat - 48) else none
  decimalDigit : ∀ c digit, decimal c = some digit → digit < 10
  asciiSpace : ∀ c : Char, c.toNat < 128 → isSpace c = asciiSpaces.contains c

/-- An ASCII digit by its code. -/
theorem isDigit_toNat {c : Char} (h : c.isDigit = true) : 48 ≤ c.toNat ∧ c.toNat < 128 := by
  rw [Char.isDigit, Bool.and_eq_true, decide_eq_true_eq, decide_eq_true_eq] at h
  have hlow : 48 ≤ c.toNat := h.1
  have hhigh : c.toNat ≤ 57 := h.2
  omega

namespace UnicodeData

/-- Tables which know ASCII only. -/
def ascii : UnicodeData where
  lower := fun text ↦ .ofList (text.toList.map Char.toLower)
  isSpace := asciiSpaces.contains
  isAlnum := Char.isAlphanum
  decimal := fun c ↦ if c.isDigit then some (c.toNat - 48) else none
  asciiDecimal := fun _ _ ↦ rfl
  decimalDigit := by
    intro c digit h
    by_cases hdigit : c.isDigit = true
    · rw [if_pos hdigit, Option.some.injEq] at h
      have hrange : c.toNat ≤ 57 := by
        rw [Char.isDigit, Bool.and_eq_true, decide_eq_true_eq, decide_eq_true_eq] at hdigit
        exact hdigit.2
      omega
    · rw [if_neg hdigit] at h
      cases h
  asciiSpace := fun _ _ ↦ rfl

variable (data : UnicodeData)

/-- `\d`. -/
def isDecimal (c : Char) : Bool := (data.decimal c).isSome

/-- `int(digits)`. -/
def toNat (digits : List Char) : ℕ :=
  digits.foldl (fun value c ↦ 10 * value + (data.decimal c).getD 0) 0

/-- `text.strip()`, on characters. -/
def stripChars (text : List Char) : List Char :=
  (text.dropWhile data.isSpace).rdropWhile data.isSpace

variable {data}

theorem isDecimal_eq_false {c : Char} (hascii : c.toNat < 128) (hdigit : c.isDigit = false) :
    data.isDecimal c = false := by
  rw [isDecimal, data.asciiDecimal c hascii, hdigit]
  rfl

theorem isDecimal_eq_true {c : Char} (hdigit : c.isDigit = true) : data.isDecimal c = true := by
  rw [isDecimal, data.asciiDecimal c (isDigit_toNat hdigit).2, if_pos hdigit]
  rfl

theorem toNat_lt (digits : List Char) : data.toNat digits < 10 ^ digits.length := by
  unfold toNat
  induction digits using List.reverseRecOn with
  | nil => exact Nat.one_pos
  | append_singleton digits c ih =>
    have hdigit : (data.decimal c).getD 0 < 10 := by
      match h : data.decimal c with
      | none => exact Nat.zero_lt_succ 9
      | some digit => exact data.decimalDigit c digit h
    rw [List.foldl_append, List.foldl_cons, List.foldl_nil, List.length_append,
      List.length_singleton, Nat.pow_succ]
    omega

/-- Reading the decimal digits of a number gives the number. -/
theorem toNat_toDigits (number : ℕ) : data.toNat (Nat.toDigits 10 number) = number := by
  have hsame : ∀ digits : List Char, (∀ c ∈ digits, c.isDigit = true) → ∀ start : ℕ,
      digits.foldl (fun value c ↦ 10 * value + (data.decimal c).getD 0) start =
        Nat.ofDigitChars 10 digits start := by
    intro digits
    induction digits with
    | nil => exact fun _ _ ↦ rfl
    | cons c rest ih =>
      intro h start
      have hc := h c List.mem_cons_self
      rw [List.foldl_cons, ih (fun d hd ↦ h d (List.mem_cons_of_mem c hd)), Nat.ofDigitChars_cons,
        data.asciiDecimal c (isDigit_toNat hc).2, if_pos hc]
      rfl
  rw [toNat, hsame _ fun c hc ↦ Nat.isDigit_of_mem_toDigits (by decide) (by decide) hc]
  exact Nat.ofDigitChars_toDigits (by decide) (by decide)

theorem isSpace_digit {c : Char} (hdigit : c.isDigit = true) : data.isSpace c = false := by
  have hrange := isDigit_toNat hdigit
  have hspaces : ∀ d ∈ asciiSpaces, d.toNat < 48 := by decide
  rw [data.asciiSpace c hrange.2, ← Bool.not_eq_true, List.contains_iff_mem]
  intro hmem
  have hlow := hspaces c hmem
  omega

/-- Text without white space at its ends is not changed. -/
theorem stripChars_eq_self {first : Char} {text : List Char} (hfirst : data.isSpace first = false)
    (hlast : ∀ c ∈ (first :: text).getLast?, data.isSpace c = false) :
    data.stripChars (first :: text) = first :: text := by
  rw [stripChars, List.dropWhile_cons_of_neg (by rw [hfirst]; exact Bool.false_ne_true)]
  apply List.rdropWhile_eq_self_iff.mpr
  intro hne
  rw [hlast _ (List.getLast_mem_getLast? hne)]
  exact Bool.false_ne_true

end UnicodeData

/-- Unicode tables which agree with ASCII on letters and digits, too. -/
structure WordData extends UnicodeData where
  asciiAlnum : ∀ c : Char, c.toNat < 128 → isAlnum c = c.isAlphanum

namespace WordData

/-- Tables which know ASCII only. -/
def ascii : WordData where
  toUnicodeData := UnicodeData.ascii
  asciiAlnum := fun _ _ ↦ rfl

theorem isWord_ascii {data : WordData} {c : Char} (h : c.toNat < 128) :
    data.isWord c = (c.isAlphanum || c == '_') := by
  rw [Unicode.isWord, data.asciiAlnum c h]

end WordData

/-- A text which is all white space is stripped to nothing. -/
theorem strip_eq_empty {unicode : Unicode} {text : String} :
    unicode.strip text = "" ↔ ∀ c ∈ text.toList, unicode.isSpace c = true := by
  rw [Unicode.strip, String.ofList_eq_empty_iff, List.rdropWhile_eq_nil_iff]
  constructor
  · intro h c hc
    rw [← List.takeWhile_append_dropWhile (p := unicode.isSpace) (l := text.toList),
      List.mem_append] at hc
    match hc with
    | .inl hc => exact List.mem_takeWhile_imp hc
    | .inr hc => exact h c hc
  · intro h c hc
    exact h c (List.dropWhile_sublist unicode.isSpace |>.subset hc)

/-- `str(number).zfill(width)`. -/
def zfill (width number : ℕ) : List Char :=
  let digits := Nat.toDigits 10 number
  List.replicate (width - digits.length) '0' ++ digits

/-- `.`: any character of a line. -/
def isInLine (c : Char) : Bool := c != '\n'

/-- `$`: at the end, or before a newline at the end. -/
def lineEnd : Pattern Char Unit
  | [] => [((), [])]
  | ['\n'] => [((), ['\n'])]
  | _ => []

@[simp] theorem mem_lineEnd {found : Unit} {text rest : List Char} :
    (found, rest) ∈ lineEnd text ↔ rest = text ∧ (text = [] ∨ text = ['\n']) := by
  unfold lineEnd
  split
  · simp
  · simp
  · next hnil hnewline =>
    constructor
    · intro h
      simp at h
    · intro ⟨_, h⟩
      match h with
      | .inl h => exact absurd h hnil
      | .inr h => exact absurd h hnewline

end IsvValidation.Host
