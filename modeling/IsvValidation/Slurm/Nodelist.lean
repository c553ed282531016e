import IsvValidation.Host.Matching
import IsvValidation.Library.Sequence

/-!
# Slurm hostlists

`expand_nodelist` splits a hostlist at the commas which stand outside of brackets, and expands the
group of every part. A comma is outside exactly if no bracket closes before the next one opens. A
hostlist is written from parts that carry what makes them well formed: a plain name, or a prefix, a
group of items and a suffix. A bound of a range with more digits than `int` accepts raises.
-/

namespace IsvValidation.Slurm

open Config Host Library

/-! ## Expansion -/

/-- `[^\[]*\]`. -/
def groupCloses : Pattern Char Unit := do
  let _ ← Pattern.many fun c ↦ c != '['
  let _ ← Pattern.one fun c ↦ c == ']'

/-- `re.split(r",(?![^\[]*\])", text)`. -/
def splitParts : List Char → List (List Char)
  | [] => [[]]
  | c :: rest =>
    if c == ',' && (groupCloses rest).isEmpty then [] :: splitParts rest
    else (splitParts rest).modifyHead (List.cons c)

/-- `^(.+?)\[([^\]]+)\](.*)$`. -/
def groupPattern : Pattern Char (List Char × List Char × List Char) := do
  let front ← Pattern.fewest isInLine
  let _ ← Pattern.one fun c ↦ c == '['
  let rangeSpec ← Pattern.some fun c ↦ c != ']'
  let _ ← Pattern.one fun c ↦ c == ']'
  let suffix ← Pattern.many isInLine
  lineEnd
  return (front, rangeSpec, suffix)

section Expand

variable (data : UnicodeData)

/-- `(\d+)-(\d+)`. -/
def rangePattern : Pattern Char (List Char × List Char) := do
  let start ← Pattern.some data.isDecimal
  let _ ← Pattern.one fun c ↦ c == '-'
  let stop ← Pattern.some data.isDecimal
  return (start, stop)

/-- The digits which `int` accepts at most. -/
@[irreducible] def maxDigits : ℕ := 4300

def tooLong : PyError := .valueError "Exceeds the limit (4300 digits) for integer string conversion"

/-- `int(digits)`. -/
def intOfDigits (digits : List Char) : Except PyError ℕ :=
  if digits.length ≤ maxDigits then .ok (data.toNat digits) else .error tooLong

/-- The names of one item of a group. -/
def expandItem (front suffix item : List Char) : Except PyError (List (List Char)) :=
  if item.contains '-' then
    match (rangePattern data).match? item with
    | some ((startText, endText), _) => do
      let start ← intOfDigits data startText
      let stop ← intOfDigits data endText
      return (List.range' start (stop + 1 - start)).map fun i ↦ front ++ zfill startText.length i ++ suffix
    | none => .ok []
  else .ok [front ++ item ++ suffix]

/-- The names of one part. -/
def expandPart (text : List Char) : Except PyError (List (List Char)) :=
  let part := data.stripChars text
  if part.isEmpty then .ok []
  else
    match groupPattern.match? part with
    | some ((front, rangeSpec, suffix), _) =>
      ((rangeSpec.splitOn ',').mapM (expandItem data front suffix)).map List.flatten
    | none => .ok [part]

/-- `expand_nodelist`. -/
def expandNodelist (nodelist : String) : Except PyError (List String) :=
  if nodelist = "" then .ok []
  else ((splitParts nodelist.toList).mapM (expandPart data)).map fun names ↦ names.flatten.map String.ofList

end Expand

/-! ## Hostlists -/

/-- A character of a name: neither a separator, nor a bracket, nor a line break. -/
def isNameChar (c : Char) : Bool := !(['[', ']', ',', '\n'].contains c)

/-- A character of a single item: neither a separator, nor a bracket, nor a dash. -/
def isItemChar (c : Char) : Bool := !(['[', ']', ',', '-'].contains c)

/-- Text of a hostlist does not end in white space. -/
def EndsVisibly (data : UnicodeData) (text : List Char) : Prop :=
  ∀ c ∈ text.getLast?, data.isSpace c = false

/-- A name, or the text before a group. -/
structure Name (data : UnicodeData) where
  first : Char
  rest : List Char
  chars : ∀ c ∈ first :: rest, isNameChar c = true
  visible : data.isSpace first = false

def Name.text {data : UnicodeData} (name : Name data) : List Char := name.first :: name.rest

/-- A number as it is written. -/
structure Numeral (data : UnicodeData) where
  digits : List Char
  ne_nil : digits ≠ []
  decimal : ∀ c ∈ digits, data.isDecimal c = true

/-- An item of a group. -/
inductive Item (data : UnicodeData) where
  | single (text : List Char) (ne_nil : text ≠ []) (chars : ∀ c ∈ text, isItemChar c = true)
  | range (lo hi : Numeral data)

/-- A part of a hostlist. -/
inductive Part (data : UnicodeData) where
  | plain (name : Name data) (visible : EndsVisibly data name.text)
  | group (front : Name data) (first : Item data) (others : List (Item data))
    (suffix : List Char) (chars : ∀ c ∈ suffix, isNameChar c = true)
    (visible : EndsVisibly data suffix)

section Notation

variable {data : UnicodeData}

def Item.text : Item data → List Char
  | single text _ _ => text
  | range lo hi => lo.digits ++ '-' :: hi.digits

/-- The bounds of a range are as long as `int` accepts. -/
def Item.readable : Item data → Bool
  | single _ _ _ => true
  | range lo hi => lo.digits.length ≤ maxDigits ∧ hi.digits.length ≤ maxDigits

def Part.readable : Part data → Bool
  | plain _ _ => true
  | group _ first others _ _ _ => (first :: others).all Item.readable

/-- The items of a group between its brackets. -/
def specText (items : List (Item data)) : List Char := [','].intercalate (items.map Item.text)

def Part.text : Part data → List Char
  | plain name _ => name.text
  | group front first others suffix _ _ =>
    front.text ++ '[' :: (specText (first :: others) ++ ']' :: suffix)

/-- A hostlist as it is written. -/
def nodelistText (parts : List (Part data)) : String :=
  .ofList ([','].intercalate (parts.map Part.text))

/-- What an item stands for: itself, or every number from `lo` to `hi` with the width of `lo`. -/
def Item.values : Item data → List (List Char)
  | single text _ _ => [text]
  | range lo hi =>
    (List.range' (data.toNat lo.digits) (data.toNat hi.digits + 1 - data.toNat lo.digits)).map
      (zfill lo.digits.length)

/-- The names which a part denotes. -/
def Part.names : Part data → List (List Char)
  | plain name _ => [name.text]
  | group front first others suffix _ _ =>
    ((first :: others).flatMap Item.values).map fun value ↦ front.text ++ value ++ suffix

end Notation

/-! ## Splitting -/

/-- Seen from here, a bracket closes before one opens. -/
theorem groupCloses_isEmpty {text : List Char} :
    (groupCloses text).isEmpty = false ↔ ∃ before after, text = before ++ ']' :: after ∧
      '[' ∉ before := by
  rw [List.isEmpty_eq_false_iff_exists_mem, Prod.exists]
  unfold groupCloses
  simp only [Pattern.mem_bind, Pattern.mem_many, Pattern.mem_one, Pattern.mem_pure]
  constructor
  · rintro ⟨_, rest, before, _, ⟨htext, hbefore⟩, c, _, ⟨hmiddle, hc⟩, _⟩
    rw [beq_iff_eq] at hc
    rw [hmiddle, hc] at htext
    exact ⟨before, _, htext, fun hmem ↦ by simpa using hbefore '[' hmem⟩
  · rintro ⟨before, after, htext, hbefore⟩
    refine ⟨(), after, before, _, ⟨htext, fun c hc ↦ ?_⟩, ']', after, ⟨rfl, rfl⟩, trivial, rfl⟩
    rw [bne_iff_ne]
    exact fun heq ↦ hbefore (heq ▸ hc)

theorem groupCloses_cons (c : Char) (rest : List Char) :
    (groupCloses (c :: rest)).isEmpty =
      if c = ']' then false else if c = '[' then true else (groupCloses rest).isEmpty := by
  have hcons : (groupCloses (c :: rest)).isEmpty = false ↔
      c = ']' ∨ c ≠ '[' ∧ (groupCloses rest).isEmpty = false := by
    rw [groupCloses_isEmpty, groupCloses_isEmpty]
    constructor
    · intro ⟨before, after, htext, hbefore⟩
      match before with
      | [] =>
        rw [List.nil_append, List.cons.injEq] at htext
        exact .inl htext.1
      | first :: before =>
        rw [List.cons_append, List.cons.injEq] at htext
        rw [List.mem_cons, not_or] at hbefore
        exact .inr ⟨fun heq ↦ hbefore.1 (heq ▸ htext.1), before, after, htext.2, hbefore.2⟩
    · intro h
      match h with
      | .inl heq => exact ⟨[], rest, by rw [heq, List.nil_append], List.not_mem_nil⟩
      | .inr ⟨hc, before, after, htext, hbefore⟩ =>
        refine ⟨c :: before, after, by rw [htext, List.cons_append], ?_⟩
        rw [List.mem_cons, not_or]
        exact ⟨Ne.symm hc, hbefore⟩
  by_cases hclose : c = ']'
  · rw [if_pos hclose]
    exact hcons.mpr (.inl hclose)
  · rw [if_neg hclose]
    by_cases hopen : c = '['
    · rw [if_pos hopen]
      by_contra h
      have hparts := hcons.mp (by simpa using h)
      exact hparts.elim hclose fun hparts ↦ hparts.1 hopen
    · rw [if_neg hopen]
      match h : (groupCloses rest).isEmpty with
      | false => exact hcons.mpr (.inr ⟨hopen, h⟩)
      | true =>
        by_contra hne
        have hparts := hcons.mp (by simpa using hne)
        rw [h] at hparts
        exact hparts.elim hclose fun hparts ↦ absurd hparts.2.symm Bool.false_ne_true

/-- Text without brackets does not matter. -/
theorem groupCloses_append {text : List Char} (hopen : '[' ∉ text) (hclose : ']' ∉ text)
    (rest : List Char) : (groupCloses (text ++ rest)).isEmpty = (groupCloses rest).isEmpty := by
  induction text with
  | nil => rfl
  | cons c text ih =>
    rw [List.mem_cons, not_or] at hopen hclose
    rw [List.cons_append, groupCloses_cons, if_neg (Ne.symm hclose.1), if_neg (Ne.symm hopen.1),
      ih hopen.2 hclose.2]

/-- No comma in the first text is a separator, with the second after it. -/
def Uncut (text rest : List Char) : Prop :=
  ∀ before after, text = before ++ ',' :: after → (groupCloses (after ++ rest)).isEmpty = false

theorem uncut_of_notMem {text : List Char} (h : ',' ∉ text) (rest : List Char) :
    Uncut text rest := by
  intro before after heq
  refine absurd ?_ h
  rw [heq]
  exact List.mem_append_right before List.mem_cons_self

/-- Between brackets no comma is a separator. -/
theorem uncut_in_group {text : List Char} (hopen : '[' ∉ text) (hclose : ']' ∉ text)
    (rest : List Char) : Uncut text (']' :: rest) := by
  intro before after heq
  have hafter : ∀ c ∈ after, c ∈ text := by
    intro c hc
    rw [heq]
    exact List.mem_append_right before (List.mem_cons_of_mem ',' hc)
  rw [groupCloses_append (fun h ↦ hopen (hafter _ h)) (fun h ↦ hclose (hafter _ h)),
    groupCloses_cons, if_pos rfl]

theorem Uncut.append {left right rest : List Char} (hleft : Uncut left (right ++ rest))
    (hright : Uncut right rest) : Uncut (left ++ right) rest := by
  intro before after heq
  match List.append_eq_append_iff.mp heq with
  | .inl ⟨middle, _, hmiddle⟩ => exact hright middle after hmiddle
  | .inr ⟨middle, hbefore, hmiddle⟩ =>
    match middle with
    | [] => exact hright [] after hmiddle.symm
    | comma :: middle =>
      rw [List.cons_append, List.cons.injEq] at hmiddle
      rw [hmiddle.2, List.append_assoc]
      exact hleft before middle (by rw [hbefore, hmiddle.1])

theorem splitParts_append {text rest : List Char} (huncut : Uncut text rest) :
    splitParts (text ++ rest) = (splitParts rest).modifyHead (text ++ ·) := by
  induction text with
  | nil => exact (congrFun List.modifyHead_id (splitParts rest)).symm
  | cons c text ih =>
    have hrest : Uncut text rest := fun before after heq ↦
      huncut (c :: before) after (by rw [heq, List.cons_append])
    have hcut : (c == ',' && (groupCloses (text ++ rest)).isEmpty) = false := by
      by_cases hc : c = ','
      · rw [huncut [] text (by rw [hc, List.nil_append]), Bool.and_false]
      · rw [beq_false_of_ne hc, Bool.false_and]
    rw [List.cons_append, splitParts, hcut, if_neg Bool.false_ne_true, ih hrest,
      List.modifyHead_modifyHead]
    rfl

theorem splitParts_comma {text rest : List Char} (huncut : Uncut text (',' :: rest))
    (hopen : (groupCloses rest).isEmpty = true) :
    splitParts (text ++ ',' :: rest) = text :: splitParts rest := by
  rw [splitParts_append huncut, splitParts, hopen]
  simp

theorem splitParts_last {text : List Char} (huncut : Uncut text []) :
    splitParts text = [text] := by
  have h := splitParts_append huncut
  rw [List.append_nil] at h
  rw [h, splitParts, List.modifyHead_cons, List.append_nil]

section Parts

variable {data : UnicodeData}

theorem isNameChar_iff {c : Char} :
    isNameChar c = true ↔ c ≠ '[' ∧ c ≠ ']' ∧ c ≠ ',' ∧ c ≠ '\n' := by
  simp [isNameChar]

theorem notMem_of_chars {text : List Char} {c : Char} (hchars : ∀ d ∈ text, isNameChar d = true)
    (hc : isNameChar c = false) : c ∉ text := by
  intro hmem
  rw [hchars c hmem] at hc
  cases hc

/-- The characters of an item are no separators and no brackets. -/
theorem Item.notMem_text (item : Item data) {c : Char} (hc : c = ',' ∨ c = '[' ∨ c = ']') :
    c ∉ item.text := by
  have hascii : data.isDecimal c = false := by
    rcases hc with rfl | rfl | rfl <;> exact UnicodeData.isDecimal_eq_false (by decide) (by decide)
  have hdash : c ≠ '-' := by
    rcases hc with rfl | rfl | rfl <;> decide
  have hnumeral : ∀ numeral : Numeral data, c ∉ numeral.digits := by
    intro numeral hmem
    rw [numeral.decimal c hmem] at hascii
    cases hascii
  cases item with
  | single text ne_nil chars =>
    intro hmem
    have hchar := chars c hmem
    rcases hc with rfl | rfl | rfl <;> simp [isItemChar] at hchar
  | range lo hi =>
    rw [Item.text, List.mem_append, List.mem_cons]
    exact fun hmem ↦ hmem.elim (hnumeral lo) fun hmem ↦ hmem.elim hdash (hnumeral hi)

theorem notMem_specText (items : List (Item data)) {c : Char} (hc : c = '[' ∨ c = ']') :
    c ∉ specText items := by
  intro hmem
  match mem_intercalate hmem with
  | .inl hcomma =>
    rw [List.mem_singleton.mp hcomma] at hc
    revert hc
    decide
  | .inr ⟨text, htext, hin⟩ =>
    have ⟨item, _, heq⟩ := List.mem_map.mp htext
    exact item.notMem_text (.inr hc) (heq ▸ hin)

/-- The text of a name is without separators and brackets. -/
theorem Name.notMem_text (name : Name data) {c : Char} (hc : isNameChar c = false) :
    c ∉ name.text := notMem_of_chars name.chars hc

/-- In the text of a part only the commas of a group occur, and these are not separators. -/
theorem Part.uncut (part : Part data) (rest : List Char) : Uncut part.text rest := by
  cases part with
  | plain name visible => exact uncut_of_notMem (name.notMem_text (by decide)) rest
  | group front first others suffix chars visible =>
    have hsuffix : ',' ∉ ']' :: suffix := by
      rw [List.mem_cons, not_or]
      exact ⟨by decide, notMem_of_chars chars (by decide)⟩
    have hspec : Uncut (specText (first :: others)) (']' :: suffix ++ rest) :=
      uncut_in_group (notMem_specText _ (.inl rfl)) (notMem_specText _ (.inr rfl)) (suffix ++ rest)
    have hopen : Uncut ['['] (specText (first :: others) ++ ']' :: suffix ++ rest) :=
      uncut_of_notMem (by decide) _
    exact (uncut_of_notMem (front.notMem_text (by decide)) _).append
      (hopen.append (hspec.append (uncut_of_notMem hsuffix rest)))

/-- After a part the text goes on with an opening bracket before a closing one, if it does so
after what follows. -/
theorem Part.opens (part : Part data) {rest : List Char}
    (hrest : (groupCloses rest).isEmpty = true) :
    (groupCloses (part.text ++ rest)).isEmpty = true := by
  cases part with
  | plain name visible =>
    rw [Part.text, groupCloses_append (name.notMem_text (by decide)) (name.notMem_text (by decide)),
      hrest]
  | group front first others suffix chars visible =>
    rw [Part.text, List.append_assoc,
      groupCloses_append (front.notMem_text (by decide)) (front.notMem_text (by decide)),
      List.cons_append, groupCloses_cons, if_neg (by decide), if_pos rfl]

theorem opens_join (parts : List (Part data)) :
    (groupCloses ([','].intercalate (parts.map Part.text))).isEmpty = true := by
  induction parts with
  | nil => rfl
  | cons part parts ih =>
    match parts with
    | [] =>
      have hpart := part.opens (show (groupCloses []).isEmpty = true from rfl)
      rw [List.append_nil] at hpart
      rw [List.map_singleton, List.intercalate_singleton, hpart]
    | next :: others =>
      rw [List.map_cons, List.map_cons, List.intercalate_cons_cons, List.append_assoc]
      apply part.opens
      rw [List.cons_append, List.nil_append, groupCloses_cons, if_neg (by decide),
        if_neg (by decide)]
      exact ih

/-- Splitting a hostlist gives its parts. -/
theorem splitParts_join {parts : List (Part data)} (hne : parts ≠ []) :
    splitParts ([','].intercalate (parts.map Part.text)) = parts.map Part.text := by
  induction parts with
  | nil => exact absurd rfl hne
  | cons part parts ih =>
    match parts with
    | [] =>
      rw [List.map_singleton, List.intercalate_singleton]
      exact splitParts_last (part.uncut [])
    | next :: others =>
      have hopens := opens_join (next :: others)
      have hrest := ih (List.cons_ne_nil next others)
      rw [List.map_cons] at hopens hrest
      rw [List.map_cons, List.map_cons, List.intercalate_cons_cons, List.append_assoc,
        List.cons_append, List.nil_append, splitParts_comma (part.uncut _) hopens, hrest]

/-! ## Expanding a part -/

/-- Between its brackets a group lists its items. -/
theorem splitOn_specText (first : Item data) (others : List (Item data)) :
    (specText (first :: others)).splitOn ',' = (first :: others).map Item.text := by
  apply List.splitOn_intercalate
  · intro text htext
    have ⟨item, _, heq⟩ := List.mem_map.mp htext
    exact heq ▸ item.notMem_text (.inl rfl)
  · exact List.cons_ne_nil _ _

theorem isDecimal_dash : data.isDecimal '-' = false :=
  UnicodeData.isDecimal_eq_false (by decide) (by decide)

theorem match?_rangePattern (lo hi : Numeral data) :
    (rangePattern data).match? (lo.digits ++ '-' :: hi.digits) =
      some ((lo.digits, hi.digits), []) := by
  unfold rangePattern
  refine Pattern.match?_some_bind lo.ne_nil lo.decimal ?_ ?_
  · intro c hc
    rw [List.head?_cons, Option.mem_def, Option.some.injEq] at hc
    rw [← hc]
    exact isDecimal_dash
  · rw [Pattern.match?_one_bind rfl, ← List.append_nil hi.digits]
    refine Pattern.match?_some_bind hi.ne_nil hi.decimal ?_ ?_
    · intro c hc
      cases hc
    · rw [List.append_nil]
      rfl

/-- Items which all give a result or the same error. -/
theorem mapM_ite {α β : Type} {f : α → Except PyError β} {g : α → β} {readable : α → Bool} {error : PyError}
    {items : List α} (h : ∀ item ∈ items, f item = if readable item then .ok (g item) else .error error) :
    items.mapM f = if items.all readable then .ok (items.map g) else .error error := by
  induction items with
  | nil => rfl
  | cons item rest ih =>
    rw [List.forall_mem_cons] at h
    rw [List.mapM_cons, h.1, ih h.2, List.all_cons]
    cases readable item <;> cases rest.all readable <;> rfl

theorem expandItem_text (front suffix : List Char) (item : Item data) :
    expandItem data front suffix item.text =
      if item.readable then .ok (item.values.map fun value ↦ front ++ value ++ suffix) else .error tooLong := by
  cases item with
  | single text ne_nil chars =>
    have hdash : text.contains '-' = false := by
      rw [Bool.eq_false_iff]
      intro h
      have hchar := chars '-' (List.contains_iff_mem.mp h)
      exact absurd hchar (by decide)
    rw [expandItem, Item.text, hdash, if_neg Bool.false_ne_true]
    rfl
  | range lo hi =>
    have hdash : (lo.digits ++ '-' :: hi.digits).contains '-' = true := by
      rw [List.contains_iff_mem]
      exact List.mem_append_right _ List.mem_cons_self
    rw [expandItem, Item.text, hdash, if_pos rfl, match?_rangePattern, Item.values, List.map_map, Item.readable]
    dsimp only
    unfold intOfDigits
    by_cases hlo : lo.digits.length ≤ maxDigits
    · by_cases hhi : hi.digits.length ≤ maxDigits
      · simp only [hlo, hhi, if_true, and_self, decide_true]
        rfl
      · simp only [hlo, hhi, if_true, if_false, and_false, decide_false]
        rfl
    · simp only [hlo, if_false, false_and, decide_false]
      rfl

/-- The one way in which a group can be read. -/
theorem match?_groupPattern {front spec suffix : List Char} (hfront : front ≠ [])
    (hspec : spec ≠ []) (hfrontChars : ∀ c ∈ front, isNameChar c = true)
    (hopen : '[' ∉ spec) (hclose : ']' ∉ spec) (hsuffix : ∀ c ∈ suffix, isNameChar c = true) :
    groupPattern.match? (front ++ '[' :: (spec ++ ']' :: suffix)) =
      some ((front, spec, suffix), []) := by
  have hinLine : ∀ text : List Char, (∀ c ∈ text, isNameChar c = true) →
      ∀ c ∈ text, isInLine c = true := by
    intro text hchars c hc
    exact bne_iff_ne.mpr (isNameChar_iff.mp (hchars c hc)).2.2.2
  have hnotMem : '[' ∉ spec ++ ']' :: suffix := by
    rw [List.mem_append, List.mem_cons]
    exact fun h ↦ h.elim hopen fun h ↦ h.elim (by decide) (notMem_of_chars hsuffix (by decide))
  apply Pattern.match?_of_unique
  · simp only [groupPattern, Pattern.mem_bind, Pattern.mem_fewest, Pattern.mem_one,
      Pattern.mem_some, Pattern.mem_many, mem_lineEnd, Pattern.mem_pure]
    refine ⟨front, _, ⟨rfl, hfront, hinLine front hfrontChars⟩, '[', _, ⟨rfl, rfl⟩, spec, _,
      ⟨rfl, hspec, ?_⟩, ']', _, ⟨rfl, rfl⟩, suffix, [],
      ⟨(List.append_nil suffix).symm, hinLine suffix hsuffix⟩, (), [], ⟨rfl, .inl rfl⟩, rfl, rfl⟩
    intro c hc
    exact bne_iff_ne.mpr fun heq ↦ hclose (heq ▸ hc)
  · rintro ⟨⟨front', spec', suffix'⟩, rest'⟩ hmem
    simp only [groupPattern, Pattern.mem_bind, Pattern.mem_fewest, Pattern.mem_one,
      Pattern.mem_some, Pattern.mem_many, mem_lineEnd, Pattern.mem_pure, beq_iff_eq] at hmem
    obtain ⟨_, afterFront, ⟨htext, _⟩, _, afterOpen, ⟨hafterFront, hbracket⟩, _, afterSpec,
      ⟨hafterOpen, _, hspecChars⟩, _, afterClose, ⟨hafterSpec, hclosing⟩, _, ending,
      ⟨hafterClose, _⟩, _, _, ⟨hrest, hending⟩, hcapture, hrest'⟩ := hmem
    rw [hafterFront, hbracket] at htext
    have hparts := (List.append_cons_inj_of_notMem
      (notMem_of_chars hfrontChars (by decide)) hnotMem).mp htext
    rw [hafterOpen, hafterSpec, hclosing] at hparts
    have hinner := (List.append_cons_inj_of_notMem hclose
      (notMem_of_chars hsuffix (by decide))).mp hparts.2.2
    have hnil : ending = [] := by
      rcases hending with h | h
      · exact h
      · have hmem : '\n' ∈ suffix := by
          rw [hinner.2.2, hafterClose, h]
          exact List.mem_append_right _ List.mem_cons_self
        exact absurd hmem (notMem_of_chars hsuffix (by decide))
    rw [hnil, List.append_nil] at hafterClose
    rw [Prod.mk.injEq, Prod.mk.injEq] at hcapture
    rw [hcapture.1, hcapture.2.1, hcapture.2.2, hparts.1, hinner.1, hinner.2.2, hafterClose, hrest',
      hrest, hnil]

theorem groupPattern_plain {text : List Char} (hopen : '[' ∉ text) :
    groupPattern.match? text = none := by
  rw [Pattern.match?_eq_none]
  intro _ _ hmem
  simp only [groupPattern, Pattern.mem_bind, Pattern.mem_fewest, Pattern.mem_one] at hmem
  obtain ⟨_, _, ⟨htext, _⟩, _, _, ⟨hafter, hbracket⟩, _⟩ := hmem
  rw [hafter, beq_iff_eq.mp hbracket] at htext
  apply hopen
  rw [htext]
  exact List.mem_append_right _ List.mem_cons_self

/-- A part has no white space around it. -/
theorem Part.stripChars_text (part : Part data) : data.stripChars part.text = part.text := by
  cases part with
  | plain name visible => exact UnicodeData.stripChars_eq_self name.visible visible
  | group front first others suffix chars visible =>
    apply UnicodeData.stripChars_eq_self front.visible
    intro c hc
    have htext : front.first :: (front.rest ++ '[' :: (specText (first :: others) ++ ']' :: suffix)) =
        (front.text ++ '[' :: specText (first :: others)) ++ [']'] ++ suffix := by
      simp [Name.text]
    have hbracket : data.isSpace ']' = false := data.asciiSpace ']' (by decide)
    change c ∈ (front.first :: (front.rest ++ _)).getLast? at hc
    rw [htext, List.getLast?_append, List.getLast?_concat] at hc
    match h : suffix.getLast? with
    | none =>
      rw [h, Option.none_or, Option.mem_def, Option.some.injEq] at hc
      rw [← hc, hbracket]
    | some last =>
      rw [h, Option.some_or, Option.mem_def, Option.some.injEq] at hc
      rw [← hc]
      exact visible last h

theorem expandPart_text (part : Part data) :
    expandPart data part.text = if part.readable then .ok part.names else .error tooLong := by
  have hempty : part.text.isEmpty = false := by
    cases part <;> rfl
  rw [expandPart, part.stripChars_text, hempty, if_neg Bool.false_ne_true]
  cases part with
  | plain name visible =>
    rw [Part.text, groupPattern_plain (name.notMem_text (by decide))]
    rfl
  | group front first others suffix chars visible =>
    have hspec : specText (first :: others) ≠ [] := by
      intro h
      have hsplit := splitOn_specText first others
      rw [h, List.splitOn_nil] at hsplit
      have hfirst : first.text = [] := by
        rw [List.map_cons, List.cons.injEq] at hsplit
        exact hsplit.1.symm
      cases first with
      | single text ne_nil _ => exact ne_nil hfirst
      | range lo hi => simp [Item.text] at hfirst
    have hmatch : groupPattern.match? (Part.group front first others suffix chars visible).text =
        some ((front.text, specText (first :: others), suffix), []) :=
      match?_groupPattern (List.cons_ne_nil _ _) hspec front.chars (notMem_specText _ (.inl rfl))
        (notMem_specText _ (.inr rfl)) chars
    rw [hmatch]
    change (((specText (first :: others)).splitOn ',').mapM (expandItem data front.text suffix)).map List.flatten = _
    have hitems : ((first :: others).map Item.text).mapM (expandItem data front.text suffix) =
        if (first :: others).all Item.readable then
          .ok ((first :: others).map fun item ↦ item.values.map fun value ↦ front.text ++ value ++ suffix)
        else .error tooLong := by
      rw [List.mapM_map]
      exact mapM_ite fun item _ ↦ expandItem_text front.text suffix item
    rw [splitOn_specText, hitems, Part.names, List.map_flatMap, Part.readable]
    cases (first :: others).all Item.readable
    · rfl
    · rfl

end Parts

theorem splitParts_nodelistText {part : Part data} {others : List (Part data)} :
    splitParts (nodelistText (part :: others)).toList = (part :: others).map Part.text := by
  rw [nodelistText, String.toList_ofList]
  exact splitParts_join (List.cons_ne_nil part others)

theorem expandNodelist_text (data : UnicodeData) (parts : List (Part data)) :
    expandNodelist data (nodelistText parts) =
      if parts.all Part.readable then .ok ((parts.flatMap Part.names).map String.ofList) else .error tooLong := by
  match parts with
  | [] => rfl
  | part :: others =>
    have hne : nodelistText (part :: others) ≠ "" := by
      intro h
      have hsplit := @splitParts_nodelistText _ part others
      rw [h, String.toList_empty, splitParts, List.map_cons, List.cons.injEq] at hsplit
      cases part <;> cases hsplit.1
    have hparts : ((part :: others).map Part.text).mapM (expandPart data) =
        if (part :: others).all Part.readable then .ok ((part :: others).map Part.names) else .error tooLong := by
      rw [List.mapM_map]
      exact mapM_ite fun part _ ↦ expandPart_text part
    rw [expandNodelist, if_neg hne, splitParts_nodelistText, hparts]
    cases (part :: others).all Part.readable
    · rfl
    · rfl

/-- A hostlist is split at the commas between its parts and nowhere else. It expands to the names of its parts, in order,
where `int` accepts the bounds of its ranges; otherwise this raises. -/
theorem expandNodelist_names (data : UnicodeData) (parts : List (Part data)) :
    splitParts (nodelistText parts).toList = (if parts.isEmpty then [[]] else parts.map Part.text) ∧
      expandNodelist data (nodelistText parts) =
        if parts.all Part.readable then .ok ((parts.flatMap Part.names).map String.ofList) else .error tooLong := by
  refine ⟨?_, expandNodelist_text data parts⟩
  match parts with
  | [] => rfl
  | part :: others => exact splitParts_nodelistText

/-- The hostlist `n[1-1…1]`, whose second bound has a digit more than `int` accepts. -/
def longRange : Part .ascii :=
  .group ⟨'n', [], by decide, by decide⟩
    (.range ⟨['1'], by simp, by decide⟩ ⟨List.replicate (maxDigits + 1) '1', by simp, fun c hc ↦ by
      rw [List.eq_of_mem_replicate hc]
      decide⟩) [] [] (by simp) (by simp [EndsVisibly])

theorem expandNodelist_longRange : expandNodelist .ascii (nodelistText [longRange]) = .error tooLong := by
  rw [expandNodelist_text, if_neg]
  simp [longRange, Part.readable, Item.readable]

end IsvValidation.Slurm
