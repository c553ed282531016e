import IsvValidation.Host.Quoting
import IsvValidation.Library.Pattern

/-!
# Sensitive arguments of a logged command

`mask_sensitive_args` goes over the words of a command from left to right and carries one bit along:
whether the next word is the value of a sensitive flag. Two commands which differ only in sensitive
values are logged alike, because the scans of both stay in step.
-/

namespace IsvValidation.Redaction

open Host Library

def redacted : String := "***"

/-! ## Sensitive names -/

/-- The table behind `re.IGNORECASE`: characters with the same image match each other. -/
structure CaseTable where
  fold : Char → Char
  ascii : ∀ c : Char, c.toNat < 128 → fold c = c.toLower

/-- The table which knows ASCII letters only. -/
def asciiCase : CaseTable where
  fold := Char.toLower
  ascii := fun _ _ ↦ rfl

namespace CaseTable

variable (table : CaseTable)

/-- A word of a pattern, spelled in any case. -/
def spelled (word : String) : Pattern Char (List Char) :=
  .word (word.toList.map fun p c ↦ table.fold c == table.fold p)

/-- Words with `[-_]?` between them. -/
def words : List String → Pattern Char Unit
  | [] => pure ()
  | [last] => do
    let _ ← table.spelled last
  | first :: rest => do
    let _ ← table.spelled first
    let _ ← Pattern.optional (.one fun c ↦ c == '-' || c == '_')
    words rest

end CaseTable

/-! ## Masking -/

/-- `SENSITIVE_ARG_PATTERNS`; each pattern by its words. -/
def sensitiveArgPatterns : List (List String) :=
  [["--secret", "access", "key"], ["--access", "key", "id"], ["--password"], ["--token"],
    ["--api", "key"], ["--private", "key"], ["--secret"], ["--credential"], ["--auth"],
    ["--connection", "string"], ["--account", "key"], ["--subscription", "key"]]

/-- `pattern.search`; the patterns of a step are taken literally. -/
def isSensitiveArg (table : CaseTable) (extraPatterns : List String) (part : String) : Bool :=
  (Pattern.oneOf ((sensitiveArgPatterns ++ extraPatterns.map fun extra ↦ [extra]).map
    table.words)).found part.toList

/-- `part.partition("=")[0]`. -/
def keyPart (part : String) : String := .ofList (part.toList.takeWhile (· ≠ '='))

/-- The words in the log; `skipNext` is the carry of the scan. -/
def maskParts (sensitive : String → Bool) (skipNext : Bool) : List String → List String
  | [] => []
  | part :: rest =>
    if skipNext then redacted :: maskParts sensitive false rest
    else if part.toList.contains '=' then
      let masked :=
        if sensitive (keyPart part) then keyPart part ++ "=" ++ redacted else part
      masked :: maskParts sensitive false rest
    else if sensitive part then
      part :: maskParts sensitive (rest.head?.any fun next ↦ !Text.startsWith next "-") rest
    else part :: maskParts sensitive false rest

/-- `mask_sensitive_args`. -/
def maskSensitiveArgs (table : CaseTable) (cmdParts extraPatterns : List String) : String :=
  Shlex.join (maskParts (isSensitiveArg table extraPatterns) false cmdParts)

example :
    maskSensitiveArgs asciiCase ["deploy", "--Password", "hunter 2", "--api_key=abc", "-v"] [] =
      "deploy --Password '***' '--api_key=***' -v" := by decide +kernel

/-! ## Sensitive values -/

section Secrets

variable (sensitive : String → Bool)

/-- Two arguments with the same sensitive key, and a text each after the first `=`. -/
def KeyedSecrets (left right : String) : Prop :=
  '=' ∈ left.toList ∧ '=' ∈ right.toList ∧ keyPart left = keyPart right ∧
    sensitive (keyPart left) = true

/-- An argument starts with `-`, has no `=` and is sensitive. -/
def IsSensitiveFlag (part : String) : Prop :=
  Text.startsWith part "-" = true ∧ '=' ∉ part.toList ∧ sensitive part = true

/-- An argument, which does not start with `-`, directly after a sensitive flag. -/
def FollowsFlag (item : Option String × String) : Prop :=
  Text.startsWith item.2 "-" = false ∧ ∃ flag, item.1 = some flag ∧ IsSensitiveFlag sensitive flag

/-- The arguments, each with the one before it. -/
def withBefore (before : Option String) : List String → List (Option String × String)
  | [] => []
  | part :: rest => (before, part) :: withBefore (some part) rest

/-- Two arguments in the same place are the same or are both sensitive values. -/
def SameOrSecret (left right : Option String × String) : Prop :=
  left.2 = right.2 ∨ KeyedSecrets sensitive left.2 right.2 ∨
    FollowsFlag sensitive left ∧ FollowsFlag sensitive right

/-- Two commands of equal length which differ only in sensitive values. -/
def DifferInSecrets (left right : List String) : Prop :=
  List.Forall₂ (SameOrSecret sensitive) (withBefore none left) (withBefore none right)

variable {sensitive}

/-- Arguments with the same key start alike. -/
theorem startsWith_of_keyPart_eq {left right : String} (hleft : '=' ∈ left.toList)
    (hright : '=' ∈ right.toList) (hkey : keyPart left = keyPart right) :
    Text.startsWith left "-" = Text.startsWith right "-" := by
  have hkeys : left.toList.takeWhile (· ≠ '=') = right.toList.takeWhile (· ≠ '=') :=
    String.ofList_injective hkey
  have hhead : ∀ text : String, '=' ∈ text.toList →
      Text.startsWith text "-" =
        ((text.toList.takeWhile (· ≠ '=')).head? == some '-') := by
    intro text hmem
    unfold Text.startsWith
    change ['-'].isPrefixOf text.toList = _
    match h : text.toList with
    | [] => rw [h] at hmem; simp at hmem
    | c :: rest =>
      by_cases hc : c = '='
      · rw [hc, List.takeWhile_cons_of_neg (by simp)]
        rfl
      · rw [List.takeWhile_cons_of_pos (by simpa using hc)]
        simp only [List.head?_cons, List.isPrefixOf_cons_cons, List.isPrefixOf_nil_left, Bool.and_true,
          Option.some_beq_some]
        exact Bool.beq_comm
  rw [hhead left hleft, hhead right hright, hkeys]

/-- Arguments in the same place start alike. -/
theorem SameOrSecret.startsWith {left right : Option String × String}
    (h : SameOrSecret sensitive left right) :
    Text.startsWith left.2 "-" = Text.startsWith right.2 "-" := by
  match h with
  | .inl heq => rw [heq]
  | .inr (.inl ⟨hleft, hright, hkey, _⟩) => exact startsWith_of_keyPart_eq hleft hright hkey
  | .inr (.inr ⟨hleft, hright⟩) => rw [hleft.1, hright.1]

/-- What the carry says about the next argument of a command: it is set before the value of a
sensitive flag, and never before an argument which starts with `-`. -/
structure Carried (sensitive : String → Bool) (skipNext : Bool)
    (items : List (Option String × String)) : Prop where
  value : ∀ item ∈ items.head?, FollowsFlag sensitive item → skipNext = true
  noFlag : skipNext = true → ∀ item ∈ items.head?, Text.startsWith item.2 "-" = false

/-- After an argument which is no sensitive flag nothing is carried. -/
theorem carried_false {part : String} (hflag : ¬ IsSensitiveFlag sensitive part)
    (rest : List String) : Carried sensitive false (withBefore (some part) rest) where
  value := by
    intro item hmem ⟨_, flag, hbefore, hsensitive⟩
    match rest with
    | [] => simp [withBefore] at hmem
    | next :: others =>
      simp only [withBefore, List.head?_cons, Option.mem_def, Option.some.injEq] at hmem
      rw [← hmem, Option.some.injEq] at hbefore
      exact absurd (hbefore ▸ hsensitive) hflag
  noFlag := fun h ↦ by cases h

/-- After a sensitive argument the carry depends on the next one only. -/
theorem carried_next (part : String) (rest : List String) :
    Carried sensitive (rest.head?.any fun next ↦ !Text.startsWith next "-")
      (withBefore (some part) rest) := by
  match rest with
  | [] => exact ⟨by simp [withBefore], by simp⟩
  | next :: others =>
    rw [List.head?_cons, Option.any_some, withBefore]
    constructor
    · intro item hmem ⟨hstart, _⟩
      rw [Option.mem_def, List.head?_cons, Option.some.injEq] at hmem
      rw [← hmem] at hstart
      rw [hstart, Bool.not_false]
    · intro hskip item hmem
      rw [Option.mem_def, List.head?_cons, Option.some.injEq] at hmem
      rw [← hmem]
      simpa using hskip

/-- The scans of two commands which differ only in sensitive values stay in step. -/
theorem maskParts_congr {skipNext : Bool} {beforeLeft beforeRight : Option String}
    {left right : List String}
    (h : List.Forall₂ (SameOrSecret sensitive) (withBefore beforeLeft left)
      (withBefore beforeRight right))
    (hleft : Carried sensitive skipNext (withBefore beforeLeft left))
    (hright : Carried sensitive skipNext (withBefore beforeRight right)) :
    maskParts sensitive skipNext left = maskParts sensitive skipNext right := by
  induction left generalizing skipNext beforeLeft beforeRight right with
  | nil =>
    match right with
    | [] => rfl
    | part :: rest => cases h
  | cons part rest ih =>
    match right with
    | [] => cases h
    | part' :: rest' =>
      have ⟨hpart, hrest⟩ := List.forall₂_cons.mp h
      have hnext : (rest.head?.any fun next ↦ !Text.startsWith next "-") =
          (rest'.head?.any fun next ↦ !Text.startsWith next "-") := by
        match rest, rest', hrest with
        | [], [], _ => rfl
        | next :: _, next' :: _, hrest =>
          have hstart := (List.forall₂_cons.mp hrest).1.startsWith
          simp only [List.head?_cons, Option.any_some]
          rw [hstart]
      match skipNext with
      | true =>
        -- the word is a value; as such it starts no flag, and nothing is carried past it
        have hvalue : ∀ {before : Option String} {word : String} {others : List String},
            Carried sensitive true (withBefore before (word :: others)) →
              ¬ IsSensitiveFlag sensitive word := by
          intro before word others hcarried hflag
          have hstart := hcarried.noFlag rfl (before, word) rfl
          rw [hflag.1] at hstart
          cases hstart
        rw [maskParts, maskParts, if_pos rfl, if_pos rfl,
          ih hrest (carried_false (hvalue hleft) rest) (carried_false (hvalue hright) rest')]
      | false =>
        rw [maskParts, maskParts, if_neg Bool.false_ne_true, if_neg Bool.false_ne_true]
        match hpart with
        | .inl heq =>
          change part = part' at heq
          subst heq
          by_cases hequals : part.toList.contains '=' = true
          · have hflag : ¬ IsSensitiveFlag sensitive part :=
              fun hflag ↦ hflag.2.1 (List.contains_iff_mem.mp hequals)
            rw [if_pos hequals, if_pos hequals,
              ih hrest (carried_false hflag rest) (carried_false hflag rest')]
          · rw [if_neg hequals, if_neg hequals]
            by_cases hsensitive : sensitive part = true
            · rw [if_pos hsensitive, if_pos hsensitive, ← hnext,
                ih hrest (carried_next part rest) (hnext ▸ carried_next part rest')]
            · have hflag : ¬ IsSensitiveFlag sensitive part := fun hflag ↦ hsensitive hflag.2.2
              rw [if_neg hsensitive, if_neg hsensitive,
                ih hrest (carried_false hflag rest) (carried_false hflag rest')]
        | .inr (.inl ⟨hmem, hmem', hkey, hsensitive⟩) =>
          change '=' ∈ part.toList at hmem
          change '=' ∈ part'.toList at hmem'
          change keyPart part = keyPart part' at hkey
          change sensitive (keyPart part) = true at hsensitive
          have hsensitive' : sensitive (keyPart part') = true := hkey ▸ hsensitive
          rw [if_pos (List.contains_iff_mem.mpr hmem), if_pos (List.contains_iff_mem.mpr hmem'),
            if_pos hsensitive, if_pos hsensitive', hkey,
            ih hrest (carried_false (fun hflag ↦ hflag.2.1 hmem) rest)
              (carried_false (fun hflag ↦ hflag.2.1 hmem') rest')]
        | .inr (.inr ⟨hfollows, _⟩) =>
          exact absurd (hleft.value (beforeLeft, part) rfl hfollows) Bool.false_ne_true

end Secrets

/-- Commands which differ only in sensitive values are logged alike. -/
theorem maskSensitiveArgs_hides (table : CaseTable) (extraPatterns : List String)
    {left right : List String}
    (h : DifferInSecrets (isSensitiveArg table extraPatterns) left right) :
    maskSensitiveArgs table left extraPatterns = maskSensitiveArgs table right extraPatterns := by
  have hcarried : ∀ parts : List String,
      Carried (isSensitiveArg table extraPatterns) false (withBefore none parts) := by
    intro parts
    refine ⟨?_, fun h ↦ by cases h⟩
    intro item hmem ⟨_, flag, hbefore, _⟩
    match parts with
    | [] => simp [withBefore] at hmem
    | part :: rest =>
      simp only [withBefore, List.head?_cons, Option.mem_def, Option.some.injEq] at hmem
      rw [← hmem] at hbefore
      cases hbefore
  unfold maskSensitiveArgs
  rw [maskParts_congr h (hcarried left) (hcarried right)]

/-- A value which looks like another sensitive flag, and a value with `=` in it. -/
theorem maskSensitiveArgs_hides_lookalike :
    maskSensitiveArgs asciiCase ["--password", "x--token", "next", "--api-key=a=b"] ["pin"] =
      maskSensitiveArgs asciiCase ["--password", "y=1", "next", "--api-key=c"] ["pin"] := by
  apply maskSensitiveArgs_hides
  have hflag : IsSensitiveFlag (isSensitiveArg asciiCase ["pin"]) "--password" := by
    unfold IsSensitiveFlag
    decide +kernel
  have hkeyed : KeyedSecrets (isSensitiveArg asciiCase ["pin"]) "--api-key=a=b" "--api-key=c" := by
    unfold KeyedSecrets
    decide +kernel
  exact .cons (.inl rfl) (.cons (.inr (.inr ⟨⟨by decide, _, rfl, hflag⟩, ⟨by decide, _, rfl, hflag⟩⟩))
    (.cons (.inl rfl) (.cons (.inr (.inl hkeyed)) .nil)))

end IsvValidation.Redaction
