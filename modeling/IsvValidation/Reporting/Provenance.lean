import IsvValidation.Host.Matching
import IsvValidation.Library.Labels

/-!
# Where a build came from

What `git describe` says of a checkout is read as a tag, the distance from it, a commit, and whether the tree was
changed. The tag may itself look like a reference: the last parts of the text are its distance and commit. A build
is the release of its version on a clean commit which has the tag of the version.
-/

namespace IsvValidation.Reporting

open Config Host Library

/-! ## References -/

def isHex (c : Char) : Bool := ('0' ≤ c && c ≤ '9') || ('a' ≤ c && c ≤ 'f')

/-- One character after the other. -/
def exactly (text : String) : Pattern Char (List Char) := Pattern.word (text.toList.map fun c d ↦ d == c)

structure BuildRef where
  tag : String
  distance : ℕ
  commit : String
  dirty : Bool
  deriving DecidableEq

section References

variable (data : UnicodeData)

/-- `_DESCRIBE_PATTERN`: `^v(?P<tag>.+)-(?P<distance>\d+)-g(?P<commit>[0-9a-f]+)(?P<dirty>-dirty)?$`. -/
def describePattern : Pattern Char (List Char × List Char × List Char × Bool) := do
  let _ ← exactly "v"
  let tag ← Pattern.some isInLine
  let _ ← exactly "-"
  let distance ← Pattern.some data.isDecimal
  let _ ← exactly "-g"
  let commit ← Pattern.some isHex
  let dirty ← Pattern.optional (exactly "-dirty")
  let _ ← lineEnd
  return (tag, distance, commit, dirty.isSome)

def describeMatch (text : String) : Option (List Char × List Char × List Char × Bool) :=
  ((describePattern data).match? text.toList).map Prod.fst

/-- The digits which `int` reads at most. -/
@[irreducible] def maxDigits : ℕ := 4300

/-- `parse_build_ref`. -/
def parseBuildRef (ref : Option String) : Option BuildRef :=
  (ref.bind fun ref ↦ describeMatch data (data.strip ref)).bind fun (tag, distance, commit, dirty) ↦
    if maxDigits < distance.length then none
    else some { tag := .ofList tag, distance := data.toNat distance, commit := .ofList commit, dirty }

/-- `build_is_release`; nothing to go on is neither yes nor no. -/
def buildIsRelease (packageVersion : String) (ref : Option String) : Option Bool :=
  (parseBuildRef data ref).map fun parsed ↦
    parsed.distance = 0 && !parsed.dirty && parsed.tag = data.strip packageVersion

end References

/-! ## What a reference says -/

def dirtyText (dirty : Bool) : List Char := if dirty then "-dirty".toList else []

/-- The text which `git describe --tags --long --dirty` prints. -/
def describeText (tag digits commit : List Char) (dirty : Bool) : List Char :=
  "v".toList ++ (tag ++ ("-".toList ++ (digits ++ ("-g".toList ++ (commit ++ dirtyText dirty)))))

/-- The parts of a reference: a tag in one line, digits, and a commit. -/
structure Describes (data : UnicodeData) (text tag digits commit : List Char) (dirty : Bool) : Prop where
  text_eq : text = describeText tag digits commit dirty
  tag_ne : tag ≠ []
  tag_line : ∀ c ∈ tag, isInLine c = true
  digits_ne : digits ≠ []
  digits_decimal : ∀ c ∈ digits, data.isDecimal c = true
  commit_ne : commit ≠ []
  commit_hex : ∀ c ∈ commit, isHex c = true

variable {data : UnicodeData}

theorem mem_exactly {text : String} {run rest all : List Char} :
    (run, rest) ∈ exactly text all ↔ run = text.toList ∧ all = text.toList ++ rest := by
  have hrun : ∀ {word run : List Char},
      List.Forall₂ (fun (class_ : Char → Bool) c ↦ class_ c = true) (word.map fun c d ↦ d == c) run ↔ run = word := by
    intro word
    induction word with
    | nil => intro run; simp
    | cons c word ih =>
      intro run
      cases run with
      | nil => simp
      | cons d run => simp [ih]
  rw [exactly, Pattern.mem_word, hrun]
  constructor
  · rintro ⟨htext, rfl⟩
    exact ⟨rfl, htext⟩
  · rintro ⟨rfl, htext⟩
    exact ⟨htext, rfl⟩

theorem mem_describePattern {tag digits commit rest text : List Char} {dirty : Bool} :
    ((tag, digits, commit, dirty), rest) ∈ describePattern data text ↔
      ∃ reference, Describes data reference tag digits commit dirty ∧ text = reference ++ rest ∧
        (rest = [] ∨ rest = ['\n']) := by
  simp only [describePattern, Pattern.mem_bind, mem_exactly, Pattern.mem_some, Pattern.mem_optional, mem_lineEnd,
    Pattern.mem_pure, Prod.mk.injEq]
  constructor
  · rintro ⟨_, _, ⟨rfl, rfl⟩, _, _, ⟨rfl, htag, hline⟩, _, _, ⟨rfl, rfl⟩, _, _, ⟨rfl, hdigits, hdecimal⟩, _, _,
      ⟨rfl, rfl⟩, _, _, ⟨rfl, hcommit, hhex⟩, found, _, hdirty, _, _, ⟨rfl, hend⟩, ⟨rfl, rfl, rfl, rfl⟩, rfl⟩
    refine ⟨describeText tag digits commit found.isSome, ⟨rfl, htag, hline, hdigits, hdecimal, hcommit, hhex⟩, ?_, hend⟩
    rcases hdirty with ⟨_, rfl, rfl, rfl⟩ | ⟨rfl, rfl⟩
    · simp only [describeText, dirtyText, Option.isSome_some, if_true, List.append_assoc]
    · simp only [describeText, dirtyText, Option.isSome_none, Bool.false_eq_true, if_false, List.append_nil,
        List.append_assoc]
  · rintro ⟨_, ⟨rfl, htag, hline, hdigits, hdecimal, hcommit, hhex⟩, rfl, hend⟩
    simp only [describeText, List.append_assoc]
    refine ⟨_, _, ⟨rfl, rfl⟩, tag, _, ⟨rfl, htag, hline⟩, _, _, ⟨rfl, rfl⟩, digits, _, ⟨rfl, hdigits, hdecimal⟩, _, _,
      ⟨rfl, rfl⟩, commit, _, ⟨rfl, hcommit, hhex⟩, if dirty then some "-dirty".toList else none, rest, ?_,
      (), rest, ⟨rfl, hend⟩, ⟨rfl, rfl, rfl, ?_⟩, rfl⟩
    · cases dirty with
      | true => exact .inl ⟨_, rfl, rfl, rfl⟩
      | false => exact .inr ⟨rfl, rfl⟩
    · cases dirty <;> rfl

theorem dash_notMem_digits {digits : List Char} (h : ∀ c ∈ digits, data.isDecimal c = true) : '-' ∉ digits := by
  intro hmem
  have hdecimal := h '-' hmem
  rw [UnicodeData.isDecimal_eq_false (by decide) (by decide)] at hdecimal
  cases hdecimal

/-- The part of a reference before its mark, if it has one. -/
def cleanText (tag digits commit : List Char) : List Char := ('v' :: (tag ++ '-' :: digits)) ++ '-' :: 'g' :: commit

theorem describeText_eq {tag digits commit : List Char} {dirty : Bool} :
    describeText tag digits commit dirty = cleanText tag digits commit ++ dirtyText dirty := by
  simp [describeText, cleanText]

/-- The commit stands behind the last dash, and the distance behind the one before. -/
theorem cleanText_injective {tag tag' digits digits' commit commit' : List Char} (hdigits : '-' ∉ digits)
    (hdigits' : '-' ∉ digits') (hcommit : '-' ∉ commit) (hcommit' : '-' ∉ commit')
    (h : cleanText tag digits commit = cleanText tag' digits' commit') :
    tag = tag' ∧ digits = digits' ∧ commit = commit' := by
  obtain ⟨hfront, hback⟩ := append_cons_injective (by simpa using hcommit) (by simpa using hcommit') h
  obtain ⟨htag, hdigits⟩ := append_cons_injective hdigits hdigits' (List.cons.inj hfront).2
  exact ⟨htag, hdigits, (List.cons.inj hback).2⟩

/-- The last character tells whether the reference is marked. -/
theorem Describes.marked_iff {text tag digits commit : List Char} {dirty : Bool}
    (h : Describes data text tag digits commit dirty) : text.getLast? = some 'y' ↔ dirty = true := by
  rw [h.text_eq, describeText_eq]
  cases dirty with
  | true => simp [dirtyText]
  | false =>
    have hfront : cleanText tag digits commit = ('v' :: (tag ++ '-' :: digits)) ++ ['-', 'g'] ++ commit := by
      simp [cleanText]
    rw [dirtyText, if_neg Bool.false_ne_true, List.append_nil, hfront, List.getLast?_append,
      List.getLast?_eq_some_getLast h.commit_ne, Option.some_or]
    refine iff_of_false (fun heq ↦ ?_) Bool.false_ne_true
    have hy := h.commit_hex _ (List.getLast_mem h.commit_ne)
    rw [Option.some.inj heq] at hy
    exact absurd hy (by decide)

/-- A reference has one reading, whatever its tag looks like. -/
theorem Describes.unique {text tag tag' digits digits' commit commit' : List Char} {dirty dirty' : Bool}
    (h : Describes data text tag digits commit dirty) (h' : Describes data text tag' digits' commit' dirty') :
    tag = tag' ∧ digits = digits' ∧ commit = commit' ∧ dirty = dirty' := by
  have hdash : ∀ {commit : List Char}, (∀ c ∈ commit, isHex c = true) → '-' ∉ commit := fun hcommit hmem ↦
    absurd (hcommit '-' hmem) (by decide)
  have hsame : dirty = dirty' := by
    rw [Bool.eq_iff_iff, ← h.marked_iff, ← h'.marked_iff]
  subst hsame
  have htext := h.text_eq.symm.trans h'.text_eq
  rw [describeText_eq, describeText_eq, List.append_cancel_right_eq] at htext
  obtain ⟨rfl, rfl, rfl⟩ := cleanText_injective (dash_notMem_digits h.digits_decimal)
    (dash_notMem_digits h'.digits_decimal) (hdash h.commit_hex) (hdash h'.commit_hex) htext
  exact ⟨rfl, rfl, rfl, rfl⟩

/-! ## Reading references -/

/-- Without a newline at its end a text is matched as a reference exactly when it is one. -/
theorem describeMatch_iff {text : String} (hend : text.toList.getLast? ≠ some '\n')
    {tag digits commit : List Char} {dirty : Bool} :
    describeMatch data text = some (tag, digits, commit, dirty) ↔
      Describes data text.toList tag digits commit dirty := by
  have hmem : ∀ {tag digits commit rest : List Char} {dirty : Bool},
      ((tag, digits, commit, dirty), rest) ∈ describePattern data text.toList ↔
        Describes data text.toList tag digits commit dirty ∧ rest = [] := by
    intro tag digits commit rest dirty
    rw [mem_describePattern]
    constructor
    · rintro ⟨reference, hdescribes, htext, rfl | rfl⟩
      · rw [List.append_nil] at htext
        exact ⟨htext ▸ hdescribes, rfl⟩
      · exact absurd (by rw [htext]; simp) hend
    · rintro ⟨hdescribes, rfl⟩
      exact ⟨text.toList, hdescribes, (List.append_nil _).symm, .inl rfl⟩
  unfold describeMatch
  constructor
  · intro h
    obtain ⟨⟨_, rest⟩, hmatch, rfl⟩ := Option.map_eq_some_iff.mp h
    exact (hmem.mp (Pattern.mem_of_match? hmatch)).1
  · intro h
    rw [Pattern.match?_of_unique (hmem.mpr ⟨h, rfl⟩) ?_]
    · rfl
    rintro ⟨⟨tag', digits', commit', dirty'⟩, rest⟩ hother
    obtain ⟨hdescribes, rfl⟩ := hmem.mp hother
    obtain ⟨rfl, rfl, rfl, rfl⟩ := h.unique hdescribes
    rfl

/-- A stripped text does not end with a newline. -/
theorem getLast?_strip {text : String} : (data.strip text).toList.getLast? ≠ some '\n' := by
  have hspace : data.isSpace '\n' = true := by
    rw [data.asciiSpace '\n' (by decide)]
    decide
  rw [Unicode.strip, String.toList_ofList]
  intro heq
  obtain ⟨hne, hlast⟩ := List.mem_getLast?_eq_getLast heq
  have hkept := List.rdropWhile_last_not data.isSpace _ hne
  rw [← hlast] at hkept
  exact hkept hspace

/-- What is read from a text is the one reading of it as a reference. -/
theorem parseBuildRef_iff {ref : String} {parsed : BuildRef} :
    parseBuildRef data (some ref) = some parsed ↔ ∃ digits, digits.length ≤ maxDigits ∧
      data.toNat digits = parsed.distance ∧
      Describes data (data.strip ref).toList parsed.tag.toList digits parsed.commit.toList parsed.dirty := by
  rw [parseBuildRef, Option.bind_some, Option.bind_eq_some_iff]
  constructor
  · rintro ⟨⟨tag, digits, commit, dirty⟩, hmatch, hparsed⟩
    simp only at hparsed
    split_ifs at hparsed with hlong
    cases hparsed
    exact ⟨digits, Nat.le_of_not_lt hlong, rfl, by simpa using (describeMatch_iff getLast?_strip).mp hmatch⟩
  · rintro ⟨digits, hlong, hdistance, hdescribes⟩
    refine ⟨_, (describeMatch_iff getLast?_strip).mpr hdescribes, ?_⟩
    simp only
    rw [if_neg (Nat.not_lt.mpr hlong), hdistance, String.ofList_toList, String.ofList_toList]

/-- A build is a release exactly with a clean reference at distance zero from the tag of its version. -/
theorem buildIsRelease_iff {packageVersion : String} {ref : Option String} :
    buildIsRelease data packageVersion ref = some true ↔ ∃ text digits commit, ref = some text ∧
      digits.length ≤ maxDigits ∧ data.toNat digits = 0 ∧
      Describes data (data.strip text).toList (data.strip packageVersion).toList digits commit false := by
  unfold buildIsRelease
  cases ref with
  | none => simp [parseBuildRef]
  | some text =>
    simp only [Option.map_eq_some_iff, parseBuildRef_iff, Bool.and_eq_true, decide_eq_true_eq, Bool.not_eq_true']
    constructor
    · rintro ⟨parsed, ⟨digits, hlong, hdistance, hdescribes⟩, ⟨hzero, hdirty⟩, htag⟩
      rw [htag, hdirty] at hdescribes
      exact ⟨text, digits, _, rfl, hlong, hdistance.trans hzero, hdescribes⟩
    · rintro ⟨_, digits, commit, heq, hlong, hzero, hdescribes⟩
      cases heq
      exact ⟨⟨data.strip packageVersion, 0, .ofList commit, false⟩, ⟨digits, hlong, hzero, by simpa using hdescribes⟩,
        ⟨rfl, rfl⟩, rfl⟩

end IsvValidation.Reporting
