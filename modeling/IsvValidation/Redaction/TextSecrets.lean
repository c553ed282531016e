import IsvValidation.Redaction.HiddenPairs

/-!
# Strings which disappear from free text

A string under a sensitive key disappears from the text of every value which it is part of when it
stands directly under a covered key and has nothing behind its first quote. Any other string, under a
key of word characters or in a list, stays in some text: the later substitutions start only in the
string itself, and keep the name which they find there.
-/

namespace IsvValidation.Redaction

open Host Library

section Secrets

variable (table : CaseTable) (data : WordData)

/-- A key of word characters and dashes. -/
def isWordKey (key : String) : Bool := key.toList.all (isKeyChar data)

/-- A sensitive key of word characters and dashes. -/
def hidesValue (key : String) : Bool := isWordKey data key && isSensitiveKey table key

/-- The text of a value, with marks on the strings under sensitive keys, after the redaction. -/
def redactedDumps (value : Output) : List Marked :=
  redactText table data Marked.char .fresh (dumps (hidesValue table data) false none value)

/-- A string is empty, or it stands under a covered key and has nothing behind its first quote. -/
def Disappears (source : Source) : Prop :=
  source.value = "" ∨ ∃ key, source.holder = some key ∧ covered table data key = true ∧
    behindQuote source.value.toList = []

end Secrets

section Survivors

variable {table : CaseTable} {data : WordData} {hides : String → Bool} {source : Source}

/-! ## Nothing is added -/

theorem source_of_quoted {value : List Char} {mark : Option Source} {c : Marked}
    (h : c ∈ quoted mark value) (hc : c.source = some source) : mark = some source ∧ value ≠ [] := by
  rw [quoted, List.mem_append, List.mem_cons] at h
  rcases h with (heq | hmem) | hmem
  · rw [heq] at hc; cases hc
  · obtain ⟨d, hd, heq⟩ := List.mem_map.mp hmem
    rw [← heq] at hc
    refine ⟨hc, fun hnil ↦ ?_⟩
    rw [hnil] at hd
    exact absurd hd List.not_mem_nil
  · rw [List.mem_singleton] at hmem
    rw [hmem] at hc
    cases hc

theorem source_of_fresh {text : List Char} {c : Marked} (h : c ∈ text.map Marked.fresh) :
    c.source = none := by
  have ⟨_, _, heq⟩ := List.mem_map.mp h
  rw [← heq]
  rfl

theorem source_of_hiddenPair {quote : Char} {name : List Marked} {c : Marked}
    (h : c ∈ hiddenPair Marked.fresh quote name) (hc : c.source = some source) : c ∈ name := by
  rw [hiddenPair, List.mem_append, List.mem_cons] at h
  match h with
  | .inl (.inl heq) => rw [heq] at hc; cases hc
  | .inl (.inr hmem) => exact hmem
  | .inr hmem => rw [source_of_fresh hmem] at hc; cases hc

theorem source_of_coveredPair {key value : List Char} {mark : Option Source} {c : Marked}
    (h : c ∈ coveredPair mark key value) (hc : c.source = some source) :
    mark = some source ∧ '"' ∈ value ∧ behindQuote value ≠ [] := by
  rw [coveredPair, List.mem_append, List.mem_append] at h
  rcases h with (hmem | hmem) | hmem
  · have hmem := List.mem_of_mem_dropLast hmem
    rcases List.mem_cons.mp hmem with heq | hmem
    · rw [heq] at hc; cases hc
    · rw [source_of_fresh hmem] at hc; cases hc
  · rw [source_of_fresh (source_of_hiddenPair hmem hc)] at hc; cases hc
  · rw [remainder] at hmem
    split_ifs at hmem with hquote
    · rw [List.mem_append] at hmem
      rcases hmem with hmem | hmem
      · obtain ⟨d, hd, heq⟩ := List.mem_map.mp hmem
        rw [← heq] at hc
        refine ⟨hc, hquote, fun hnil ↦ ?_⟩
        rw [hnil] at hd
        exact absurd hd List.not_mem_nil
      · rw [List.mem_singleton] at hmem
        rw [hmem] at hc
        cases hc
    · exact absurd hmem List.not_mem_nil

theorem source_of_bracketed {first last : Char} {parts : List (List Marked)} {c : Marked}
    (h : c ∈ .fresh first :: [Marked.fresh ',', .fresh ' '].intercalate parts ++ [.fresh last])
    (hc : c.source = some source) : ∃ part ∈ parts, c ∈ part := by
  rw [List.mem_append, List.mem_cons, List.mem_singleton] at h
  match h with
  | .inl (.inl heq) => rw [heq] at hc; cases hc
  | .inr heq => rw [heq] at hc; cases hc
  | .inl (.inr hmem) =>
    match mem_intercalate hmem with
    | .inr hpart => exact hpart
    | .inl hcomma => rw [@source_of_fresh [',', ' '] c hcomma] at hc; cases hc

mutual

/-- The marked strings are those which `redact_dict` replaces: none of them is left in what it returns. -/
theorem source_of_redactDict {c : Marked} (hc : c.source = some source) (holder : Option String) :
    ∀ value : Output, c ∈ dumps (hidesValue table data) false holder (redactDict table value) →
      ∃ key, source = ⟨some key, redacted⟩
  | .text value, hmem => by
    rw [redactDict, dumps] at hmem
    cases (source_of_quoted hmem hc).1
  | .list items, hmem => by
    rw [redactDict, dumps] at hmem
    have ⟨part, hpart, hin⟩ := source_of_bracketed hmem hc
    exact source_of_redactItems hc items part hpart hin
  | .mapping entries, hmem => by
    rw [redactDict, dumps] at hmem
    have ⟨part, hpart, hin⟩ := source_of_bracketed hmem hc
    exact source_of_redactEntries hc entries part hpart hin

theorem source_of_redactItems {c : Marked} (hc : c.source = some source) : ∀ items : List Output,
    ∀ part ∈ dumpsItems (hidesValue table data) false (redactItems table items), c ∈ part →
      ∃ key, source = ⟨some key, redacted⟩
  | [], _, hpart, _ => nomatch hpart
  | item :: rest, part, hpart, hin => by
    rw [redactItems, dumpsItems] at hpart
    match List.mem_cons.mp hpart with
    | .inl heq => exact source_of_redactDict hc none item (heq ▸ hin)
    | .inr hmem => exact source_of_redactItems hc rest part hmem hin

theorem source_of_redactEntries {c : Marked} (hc : c.source = some source) :
    ∀ entries : List (String × Output),
      ∀ part ∈ dumpsEntries (hidesValue table data) false (redactEntries table entries), c ∈ part →
        ∃ key, source = ⟨some key, redacted⟩
  | [], _, hpart, _ => nomatch hpart
  | (key, value) :: rest, part, hpart, hin => by
    rw [redactEntries, dumpsEntries] at hpart
    match List.mem_cons.mp hpart with
    | .inr hmem => exact source_of_redactEntries hc rest part hmem hin
    | .inl heq =>
      rw [heq, List.mem_append, List.mem_append] at hin
      match hin with
      | .inl (.inl hmem) => cases (source_of_quoted hmem hc).1
      | .inl (.inr hmem) => rw [@source_of_fresh [':', ' '] c hmem] at hc; cases hc
      | .inr hmem =>
        by_cases hkey : isSensitiveKey table key = true
        · rw [if_pos hkey, dumps] at hmem
          have hmark := (source_of_quoted hmem hc).1
          split_ifs at hmark
          exact ⟨key, (Option.some.inj hmark).symm⟩
        · have hhides : hidesValue table data key = false := by simp [hidesValue, hkey]
          rw [if_neg hkey, hhides] at hmem
          exact source_of_redactDict hc (some key) value hmem

end

mutual

/-- A string which is to disappear is gone after the first substitution. -/
theorem source_of_hiddenDumps (hdisappears : Disappears table data source) (hidden : Bool)
    (holder : Option String) :
    ∀ value : Output, (∀ key ∈ holder, covered table data key = true → value.text? = none) →
      ∀ c ∈ hiddenDumps table data hides hidden holder value, c.source ≠ some source
  | .text value, hholder => by
    intro c hc hsource
    rw [hiddenDumps] at hc
    have ⟨hmark, hne⟩ := source_of_quoted hc hsource
    have heq : source = ⟨holder, value⟩ := by
      split_ifs at hmark with hhidden
      exact (Option.some.inj hmark).symm
    rw [heq] at hdisappears
    match hdisappears with
    | .inl hempty =>
      have hvalue : value = "" := hempty
      exact hne (by rw [hvalue]; rfl)
    | .inr ⟨key, hkey, hcovered, _⟩ => exact absurd (hholder key hkey hcovered) (by simp [Output.text?])
  | .list items, _ => by
    intro c hc hsource
    rw [hiddenDumps] at hc
    have ⟨part, hpart, hin⟩ := source_of_bracketed hc hsource
    exact source_of_hiddenItems hdisappears hidden items part hpart c hin hsource
  | .mapping entries, _ => by
    intro c hc hsource
    rw [hiddenDumps] at hc
    have ⟨part, hpart, hin⟩ := source_of_bracketed hc hsource
    exact source_of_hiddenEntries hdisappears hidden entries part hpart c hin hsource

theorem source_of_hiddenItems (hdisappears : Disappears table data source) (hidden : Bool) :
    ∀ items : List Output, ∀ part ∈ hiddenItems table data hides hidden items,
      ∀ c ∈ part, c.source ≠ some source
  | [] => by
    intro part hpart
    rw [hiddenItems] at hpart
    exact absurd hpart List.not_mem_nil
  | item :: rest => by
    intro part hpart
    rw [hiddenItems, List.mem_cons] at hpart
    match hpart with
    | .inl heq =>
      rw [heq]
      exact source_of_hiddenDumps hdisappears hidden none item fun _ h ↦ by cases h
    | .inr hmem => exact source_of_hiddenItems hdisappears hidden rest part hmem

theorem source_of_hiddenEntries (hdisappears : Disappears table data source) (hidden : Bool) :
    ∀ entries : List (String × Output), ∀ part ∈ hiddenEntries table data hides hidden entries,
      ∀ c ∈ part, c.source ≠ some source
  | [] => by
    intro part hpart
    rw [hiddenEntries] at hpart
    exact absurd hpart List.not_mem_nil
  | (key, value) :: rest => by
    have hvalue := source_of_hiddenDumps hdisappears (hidden || hides key) (some key) value
    intro part hpart
    rw [hiddenEntries, List.mem_cons] at hpart
    match hpart with
    | .inr hmem => exact source_of_hiddenEntries hdisappears hidden rest part hmem
    | .inl heq =>
      intro c hc hsource
      rw [heq] at hc
      match hfound : (if covered table data key = true then value.text? else none) with
      | some text =>
        rw [hfound] at hc
        have ⟨hmark, hquote, hbehind⟩ := source_of_coveredPair hc hsource
        have heq : source = ⟨some key, text⟩ := by
          split_ifs at hmark with hhidden
          exact (Option.some.inj hmark).symm
        rw [heq] at hdisappears
        match hdisappears with
        | .inl hempty =>
          have hvalue : text = "" := hempty
          rw [hvalue] at hquote
          exact absurd hquote List.not_mem_nil
        | .inr ⟨_, _, _, hnone⟩ => exact hbehind hnone
      | none =>
        rw [hfound, List.mem_append, List.mem_append] at hc
        match hc with
        | .inl (.inl hmem) => cases (source_of_quoted hmem hsource).1
        | .inl (.inr hmem) => rw [@source_of_fresh [':', ' '] c hmem] at hsource; cases hsource
        | .inr hmem =>
          refine hvalue (fun key' hkey hcovered ↦ ?_) c hmem hsource
          rw [← Option.some.inj hkey] at hcovered
          rwa [if_pos hcovered] at hfound

end

/-- A substitution of quoted pairs adds no characters of a string. -/
theorem source_of_sub {quote : Char} {text : List Marked} {c : Marked}
    (h : c ∈ (quotedPair table data Marked.char quote).sub (hiddenPair .fresh quote) text)
    (hc : c.source = some source) : c ∈ text := by
  match Pattern.mem_sub (consuming_quotedPair quote) h with
  | .inl hmem => exact hmem
  | .inr ⟨after, name, rest, hsuffix, hway, hin⟩ =>
    have hname := source_of_hiddenPair hin hc
    have ⟨first, second, spaces, colon, spaces', third, value, fourth, htext, _⟩ :=
      mem_quotedPair.mp hway
    exact hsuffix.subset (by rw [htext]; simp [hname])

theorem source_of_redactText {text : List Marked} {c : Marked}
    (h : c ∈ redactText table data Marked.char .fresh text) (hc : c.source = some source) :
    c ∈ hideQuotes table data text := by
  rw [redactText, List.mem_map] at h
  have ⟨pair, hpair, heq⟩ := h
  have hsecond : c ∈ (quotedPair table data Marked.char '\'').sub (hiddenPair .fresh '\'')
      (hideQuotes table data text) := by
    match Pattern.mem_sub consuming_keyValue hpair with
    | .inl hmem =>
      have hin := List.mem_map_of_mem (f := Prod.snd) hmem
      rwa [Pattern.map_snd_withPrevious, heq] at hin
    | .inr ⟨after, name, rest, hsuffix, hway, hin⟩ =>
      have ⟨spaces, equals, others, htext, _⟩ := mem_keyValue hway
      rw [hiddenValue, List.mem_append] at hin
      match hin with
      | .inl hname =>
        have hafter := List.mem_map_of_mem (f := Prod.snd)
          (hsuffix.subset (show pair ∈ after by rw [htext]; simp [hname]))
        rwa [Pattern.map_snd_withPrevious, heq] at hafter
      | .inr hfresh =>
        have ⟨_, _, hpair'⟩ := List.mem_map.mp hfresh
        rw [← heq, ← hpair'] at hc
        cases hc
  exact source_of_sub hsecond hc

/-! ## Names are kept -/

/-- A character of the string is directly behind another one of it or behind a quote. -/
def Tight (source : Source) (a b : Marked) : Prop :=
  a.source ≠ some source → b.source = some source → a.char = '"' ∨ a.char = '\''

theorem isChain_tight_of_unmarked {text : List Marked} (h : ∀ c ∈ text, c.source ≠ some source) :
    text.IsChain (Tight source) := by
  induction text with
  | nil => exact .nil
  | cons c rest ih =>
    rw [List.isChain_cons]
    refine ⟨fun d hd _ hmark ↦ absurd hmark (h d ?_), ih fun d hd ↦ h d (List.mem_cons_of_mem c hd)⟩
    exact List.mem_cons_of_mem c (List.mem_of_mem_head? hd)

/-- Characters other than quotes in front of a character of the string are of the string, too. -/
theorem marked_before {front : List Marked} {last : Marked}
    (hchain : (front ++ [last]).IsChain (Tight source)) (hlast : last.source = some source)
    (hquote : ∀ c ∈ front, c.char ≠ '"' ∧ c.char ≠ '\'') :
    ∀ c ∈ front, c.source = some source := by
  induction front with
  | nil =>
    intro c hc
    exact absurd hc List.not_mem_nil
  | cons d rest ih =>
    rw [List.cons_append, List.isChain_cons] at hchain
    have hrest := ih hchain.2 fun c hc ↦ hquote c (List.mem_cons_of_mem d hc)
    have hnext : ∃ b ∈ (rest ++ [last]).head?, b.source = some source := by
      match rest with
      | [] => exact ⟨last, rfl, hlast⟩
      | b :: others => exact ⟨b, rfl, hrest b List.mem_cons_self⟩
    have ⟨b, hb, hmark⟩ := hnext
    have hd : d.source = some source := by
      by_contra hnot
      match hchain.1 b hb hnot hmark with
      | .inl heq => exact (hquote d List.mem_cons_self).1 heq
      | .inr heq => exact (hquote d List.mem_cons_self).2 heq
    intro c hc
    match List.mem_cons.mp hc with
    | .inl heq => rw [heq]; exact hd
    | .inr hc => exact hrest c hc

theorem name_no_quote {name : List Marked} (h : IsName table data (name.map Marked.char)) :
    ∀ c ∈ name, c.char ≠ '"' ∧ c.char ≠ '\'' := by
  intro c hc
  have hmem := List.mem_map_of_mem (f := Marked.char) hc
  constructor
  · intro heq
    rw [heq] at hmem
    exact h.notMem (by decide) (by decide) hmem
  · intro heq
    rw [heq] at hmem
    exact h.notMem (by decide) (by decide) hmem

/-- What the later substitutions keep: no foreign character but a quote stands directly before one of
the string, equality signs come from the string, and something of the string is there. -/
structure Kept (source : Source) (text : List Marked) : Prop where
  tight : text.IsChain (Tight source)
  equals : ∀ c ∈ text, c.char = '=' → c.source = some source
  some : ∃ c ∈ text, c.source = .some source

/-- A name in front of a character of the string is of the string. -/
theorem name_of_string {text after name behind : List Marked} {last : Marked}
    (htight : text.IsChain (Tight source)) (hsuffix : after <:+ text)
    (hafter : after = name ++ last :: behind) (hlast : last.source = some source)
    (hquote : ∀ c ∈ name, c.char ≠ '"' ∧ c.char ≠ '\'') :
    name.IsChain (Tight source) ∧ ∀ c ∈ name, c.source = some source := by
  have hchain := htight.suffix hsuffix
  rw [hafter, show name ++ last :: behind = (name ++ [last]) ++ behind by simp] at hchain
  have hfront := hchain.left_of_append
  exact ⟨hfront.left_of_append, marked_before hfront hlast hquote⟩

/-- A name between single quotes is of the string when single quotes are. -/
theorem name_of_apostrophes {text after name rest : List Marked} (h : Kept source text)
    (hapostrophe : ∀ c ∈ text, c.char = '\'' → c.source = some source) (hsuffix : after <:+ text)
    (hway : (name, rest) ∈ quotedPair table data Marked.char '\'' after) :
    name.IsChain (Tight source) ∧ name ≠ [] ∧ ∀ c ∈ name, c.source = some source := by
  have ⟨first, second, spaces, colon, spaces', third, value, fourth, htext, hname, _, hsecond, _⟩ :=
    mem_quotedPair.mp hway
  have hafter : after = (first :: name) ++ second ::
      (spaces ++ colon :: spaces' ++ third :: value ++ fourth :: rest) := by
    rw [htext]
    simp
  have hmark := hapostrophe second (hsuffix.subset (by rw [hafter]; simp)) hsecond
  have hbehind : name ++ second :: (spaces ++ colon :: spaces' ++ third :: value ++ fourth :: rest) <:+
      after := ⟨[first], by rw [hafter]; simp⟩
  have ⟨hchain, hall⟩ := name_of_string h.tight (hbehind.trans hsuffix) rfl hmark (name_no_quote hname)
  refine ⟨hchain, fun hnil ↦ ?_, hall⟩
  rw [hnil] at hname
  exact hname.ne_nil rfl

/-- What a pair between single quotes is replaced by meets the relation inside and at its ends. -/
theorem tight_hiddenPair {name : List Marked} (h : name.IsChain (Tight source)) :
    (hiddenPair Marked.fresh '\'' name).IsChain (Tight source) ∧
      (∀ x, ∀ y ∈ (hiddenPair Marked.fresh '\'' name).head?, Tight source x y) ∧
      (∀ x ∈ (hiddenPair Marked.fresh '\'' name).getLast?, ∀ y, Tight source x y) ∧
      hiddenPair Marked.fresh '\'' name ≠ [] := by
  have hfresh : ∀ text : List Char, ∀ c ∈ text.map Marked.fresh, c.source ≠ some source := by
    intro text c hc hmark
    rw [source_of_fresh hc] at hmark
    cases hmark
  have hforeign : ∀ x y : Marked, y.source ≠ some source → Tight source x y :=
    fun _ _ hy _ hmark ↦ absurd hmark hy
  have hquote : ∀ x y : Marked, x.char = '\'' → Tight source x y := fun _ _ hx _ _ ↦ .inr hx
  refine ⟨?_, fun x y hy ↦ ?_, fun x hx y ↦ ?_, List.cons_ne_nil _ _⟩
  · rw [hiddenPair, List.cons_append, List.isChain_cons]
    refine ⟨fun y _ ↦ hquote _ y rfl,
      h.append (isChain_tight_of_unmarked (hfresh _)) fun x _ y hy ↦ hforeign x y ?_⟩
    exact hfresh _ y (List.mem_of_mem_head? hy)
  · rw [hiddenPair, List.cons_append, List.head?_cons, Option.mem_some_iff] at hy
    rw [← hy]
    exact hforeign x _ (fun hmark ↦ by cases hmark)
  · rw [hiddenPair, List.map_append, ← List.append_assoc, List.map_singleton, List.getLast?_concat,
      Option.mem_some_iff] at hx
    exact hquote x y (by rw [← hx]; rfl)

theorem kept_apostrophes {text : List Marked} (h : Kept source text)
    (hapostrophe : ∀ c ∈ text, c.char = '\'' → c.source = some source) :
    Kept source ((quotedPair table data Marked.char '\'').sub (hiddenPair .fresh '\'') text) where
  tight := Pattern.isChain_sub (consuming_quotedPair _)
    (fun _ _ _ hsuffix hway ↦
      tight_hiddenPair (name_of_apostrophes h hapostrophe hsuffix hway).1) h.tight
  equals := by
    intro c hc heq
    match Pattern.mem_sub (consuming_quotedPair _) hc with
    | .inl hmem => exact h.equals c hmem heq
    | .inr ⟨after, name, rest, hsuffix, hway, hin⟩ =>
      rw [hiddenPair, List.mem_append, List.mem_cons] at hin
      match hin with
      | .inl (.inl hfirst) => rw [hfirst] at heq; exact absurd heq (by decide)
      | .inl (.inr hmem) => exact (name_of_apostrophes h hapostrophe hsuffix hway).2.2 c hmem
      | .inr hmem =>
        have ⟨d, hd, hdc⟩ := List.mem_map.mp hmem
        have hnone : ∀ d ∈ ['\'', ':', ' ', '\''] ++ redacted.toList ++ ['\''], d ≠ '=' := by decide
        rw [← hdc] at heq
        exact absurd heq (hnone d hd)
  some := Pattern.exists_mem_sub (consuming_quotedPair _) (fun after name rest hsuffix hway ↦ by
    have ⟨_, hne, hall⟩ := name_of_apostrophes h hapostrophe hsuffix hway
    have ⟨c, hc⟩ := List.exists_mem_of_ne_nil name hne
    exact ⟨c, by rw [hiddenPair]; simp [hc], hall c hc⟩) h.some

/-- A name before an equality sign is of the string. -/
theorem name_of_equals {text : List Marked} {after name rest : List (Option Marked × Marked)}
    (h : Kept source text) (hsuffix : after <:+ Pattern.withPrevious none text)
    (hway : (name, rest) ∈ keyValue table data Marked.char after) :
    ∃ c ∈ name, c.2.source = some source := by
  have ⟨spaces, equals, others, htext, hname, hequals, hspaces⟩ := mem_keyValue hway
  have hplain : after.map Prod.snd <:+ text := by
    have hmap := hsuffix.map Prod.snd
    rwa [Pattern.map_snd_withPrevious] at hmap
  have hafter : after.map Prod.snd = (name ++ spaces).map Prod.snd ++ equals.2 ::
      (others ++ rest).map Prod.snd := by
    rw [htext]
    simp
  have hmark := h.equals equals.2 (hplain.subset (by rw [hafter]; simp)) hequals
  have hnames : IsName table data ((name.map Prod.snd).map Marked.char) := by
    rw [List.map_map]
    exact hname
  have hquote : ∀ c ∈ (name ++ spaces).map Prod.snd, c.char ≠ '"' ∧ c.char ≠ '\'' := by
    intro c hc
    rw [List.map_append, List.mem_append] at hc
    match hc with
    | .inl hc => exact name_no_quote hnames c hc
    | .inr hc =>
      have ⟨pair, hpair, heq⟩ := List.mem_map.mp hc
      have hspace := hspaces pair hpair
      rw [heq] at hspace
      constructor
      · intro hchar
        rw [hchar, data.asciiSpace _ (by decide)] at hspace
        exact absurd hspace (by decide)
      · intro hchar
        rw [hchar, data.asciiSpace _ (by decide)] at hspace
        exact absurd hspace (by decide)
  have ⟨_, hall⟩ := name_of_string h.tight hplain hafter hmark hquote
  have hne : name ≠ [] := by
    intro hnil
    rw [hnil] at hname
    exact hname.ne_nil rfl
  have ⟨c, hc⟩ := List.exists_mem_of_ne_nil name hne
  exact ⟨c, hc, hall c.2 (List.mem_map_of_mem (List.mem_append_left _ hc))⟩

theorem exists_mem_keyValue {text : List Marked} (h : Kept source text) :
    ∃ pair ∈ (keyValue table data Marked.char).sub (hiddenValue .fresh)
      (Pattern.withPrevious none text), pair.2.source = some source := by
  have hpairs : ∃ pair ∈ Pattern.withPrevious none text, pair.2.source = some source := by
    have ⟨c, hc, hmark⟩ := h.some
    rw [← Pattern.map_snd_withPrevious none text] at hc
    have ⟨pair, hpair, heq⟩ := List.mem_map.mp hc
    exact ⟨pair, hpair, by rw [heq]; exact hmark⟩
  apply Pattern.exists_mem_sub consuming_keyValue _ hpairs
  intro after name rest hsuffix hway
  have ⟨c, hc, hmark⟩ := name_of_equals h hsuffix hway
  exact ⟨c, List.mem_append_left _ hc, hmark⟩

/-- Something of the string is left in the end. -/
theorem exists_mem_redactText {text : List Marked} (h : Kept source (hideQuotes table data text))
    (hapostrophe : ∀ c ∈ hideQuotes table data text, c.char = '\'' → c.source = some source) :
    ∃ c ∈ redactText table data Marked.char .fresh text, c.source = some source := by
  have hfound : ∃ pair ∈ (keyValue table data Marked.char).sub (hiddenValue .fresh)
      (Pattern.withPrevious none ((quotedPair table data Marked.char '\'').sub
        (hiddenPair .fresh '\'') (hideQuotes table data text))), pair.2.source = some source :=
    exists_mem_keyValue (kept_apostrophes h hapostrophe)
  have ⟨pair, hpair, hmark⟩ := hfound
  exact ⟨pair.2, List.mem_map_of_mem hpair, hmark⟩

/-! ## A value in which a string stays -/

/-- Characters of no string, neither single quotes nor equality signs. -/
def Clean (text : List Marked) : Prop := ∀ c ∈ text, c.source = none ∧ c.char ≠ '\'' ∧ c.char ≠ '='

theorem Clean.append {text text' : List Marked} (h : Clean text) (h' : Clean text') :
    Clean (text ++ text') := by
  intro c hc
  match List.mem_append.mp hc with
  | .inl hc => exact h c hc
  | .inr hc => exact h' c hc

theorem clean_fresh {text : List Char} (h : '\'' ∉ text ∧ '=' ∉ text) : Clean (text.map .fresh) := by
  intro c hc
  have ⟨d, hd, heq⟩ := List.mem_map.mp hc
  rw [← heq]
  exact ⟨rfl, fun hchar ↦ h.1 (hchar ▸ hd), fun hchar ↦ h.2 (hchar ▸ hd)⟩

/-- A value as what stands before, within and behind a part of a string. -/
structure Parts (source : Source) (text : List Marked) (before : List Marked) (middle : List Char)
    (after : List Marked) : Prop where
  split : text = before ++ middle.map (⟨·, some source⟩) ++ after
  cleanBefore : Clean before
  quoteBefore : ∀ c ∈ before.getLast?, c.char = '"'
  cleanAfter : Clean after
  ne_nil : middle ≠ []

theorem Parts.kept {text before after : List Marked} {middle : List Char}
    (h : Parts source text before middle after) :
    Kept source text ∧ ∀ c ∈ text, c.char = '\'' → c.source = some source := by
  have ⟨hsplit, hbefore, hlast, hafter, hne⟩ := h
  subst hsplit
  have hforeign : ∀ text, Clean text → ∀ c ∈ text, c.source ≠ some source := by
    intro text htext c hc hmark
    rw [(htext c hc).1] at hmark
    cases hmark
  have hmiddle : ∀ c ∈ middle.map (⟨·, some source⟩ : Char → Marked), c.source = some source := by
    intro c hc
    have ⟨_, _, heq⟩ := List.mem_map.mp hc
    rw [← heq]
  have hfrom : ∀ x : Char, (∀ c ∈ before, c.char ≠ x) → (∀ c ∈ after, c.char ≠ x) →
      ∀ c ∈ before ++ middle.map (⟨·, some source⟩) ++ after, c.char = x → c.source = some source := by
    intro x hx hx' c hc heq
    rw [List.mem_append, List.mem_append] at hc
    match hc with
    | .inl (.inl hc) => exact absurd heq (hx c hc)
    | .inl (.inr hc) => exact hmiddle c hc
    | .inr hc => exact absurd heq (hx' c hc)
  refine ⟨⟨?_, ?_, ?_⟩, ?_⟩
  · have hinside : (middle.map (⟨·, some source⟩ : Char → Marked)).IsChain (Tight source) :=
      List.isChain_map _ |>.mpr (List.Pairwise.isChain
        (List.pairwise_of_forall fun _ _ hnot _ ↦ absurd rfl hnot))
    refine (List.IsChain.append (isChain_tight_of_unmarked (hforeign _ hbefore)) hinside ?_).append
      (isChain_tight_of_unmarked (hforeign _ hafter)) ?_
    · exact fun x hx _ _ _ _ ↦ .inl (hlast x hx)
    · exact fun _ _ y hy _ hmark ↦ absurd hmark (hforeign _ hafter y (List.mem_of_mem_head? hy))
  · exact hfrom '=' (fun c hc ↦ (hbefore c hc).2.2) fun c hc ↦ (hafter c hc).2.2
  · have ⟨c, hc⟩ := List.exists_mem_of_ne_nil middle hne
    exact ⟨⟨c, some source⟩, by simp [hc], rfl⟩
  · exact hfrom '\'' (fun c hc ↦ (hbefore c hc).2.1) fun c hc ↦ (hafter c hc).2.1

/-- Other characters than those of a name are not in a key of word characters. -/
theorem notMem_wordKey {key : String} (h : isWordKey data key = true) {x : Char}
    (hascii : x.toNat < 128) (hx : (x.isAlphanum || x == '_' || x == '-') = false) :
    x ∉ key.toList := by
  intro hmem
  have hword := List.all_eq_true.mp h x hmem
  rw [isKeyChar_ascii hascii, hx] at hword
  cases hword

theorem clean_quoted {key : String} (h : isWordKey data key = true) : Clean (quoted none key.toList) := by
  have hescape : Clean ((escape key.toList).map .fresh) :=
    clean_fresh ⟨notMem_escape (by decide) (notMem_wordKey h (by decide) (by decide)),
      notMem_escape (by decide) (notMem_wordKey h (by decide) (by decide))⟩
  have hquote : Clean [Marked.fresh '"'] := @clean_fresh ['"'] (by decide)
  exact (hquote.append hescape).append hquote

theorem hidesValue_password : hidesValue table data "password" = true := by
  have hchars : ∀ c ∈ "password".toList, c.toNat < 128 ∧
      (c.isAlphanum || c == '_' || c == '-') = true := by
    decide
  rw [hidesValue, isWordKey, Bool.and_eq_true, List.all_eq_true]
  constructor
  · intro c hc
    rw [isKeyChar_ascii (hchars c hc).1]
    exact (hchars c hc).2
  · refine isSensitiveKey_iff.mpr ⟨[], "password".toList, [], by simp, ["password"], by decide, ?_⟩
    rw [Spells, SpelledAs, List.forall₂_same]
    intro c _
    rfl

/-- The start of a mapping with a key. -/
def opening (key : String) : List Marked := .fresh '\x7b' :: (quoted none key.toList ++ afterKey)

theorem clean_opening {key : String} (h : isWordKey data key = true) : Clean (opening key) := by
  have hbrace : Clean [Marked.fresh '\x7b'] := @clean_fresh ['\x7b'] (by decide)
  exact hbrace.append ((clean_quoted h).append (@clean_fresh [':', ' '] (by decide)))

/-- A mapping of one key after the first substitution. -/
theorem hiddenDumps_single {hidden : Bool} {holder : Option String} {key : String} {value : Output}
    (h : covered table data key = true → value.text? = none) :
    hiddenDumps table data hides hidden holder (.mapping [(key, value)]) =
      opening key ++ hiddenDumps table data hides (hidden || hides key) (some key) value ++
        [.fresh '\x7d'] := by
  have hnone : (if covered table data key = true then value.text? else none) = none := by
    split_ifs with hcovered
    · exact h hcovered
    · rfl
  rw [hiddenDumps, hiddenEntries, hiddenEntries, hnone, List.intercalate_singleton]
  rfl

theorem hiddenDumps_single_covered {hidden : Bool} {holder : Option String} {key text : String}
    (h : covered table data key = true) :
    hiddenDumps table data hides hidden holder (.mapping [(key, .text text)]) =
      .fresh '\x7b' :: coveredPair (if hidden || hides key then some ⟨some key, text⟩ else none)
        key.toList text.toList ++ [.fresh '\x7d'] := by
  rw [hiddenDumps, hiddenEntries, hiddenEntries, if_pos h, List.intercalate_singleton]
  rfl

/-- Every string which is not to disappear, in a list or under a key of word characters, has a value
in which some of it is left by the first substitution. -/
theorem exists_parts (hholder : ∀ key ∈ source.holder, isWordKey data key = true)
    (hstays : ¬ Disappears table data source) :
    ∃ value before middle after,
      Parts source (hiddenDumps table data (hidesValue table data) false none value)
        before middle after := by
  have hword : isWordKey data "password" = true := by
    have hhides := @hidesValue_password table data
    rw [hidesValue, Bool.and_eq_true] at hhides
    exact hhides.1
  have hempty : source.value.toList ≠ [] := by
    intro hnil
    exact hstays (.inl (String.toList_eq_nil_iff.mp hnil))
  have hescape : escape source.value.toList ≠ [] := fun hnil ↦ hempty (escape_eq_nil hnil)
  have hquote : Clean [Marked.fresh '"'] := @clean_fresh ['"'] (by decide)
  have hbrace : Clean [Marked.fresh '\x7d'] := @clean_fresh ['\x7d'] (by decide)
  have hopening := clean_opening hword
  match hsource : source with
  | ⟨none, value⟩ =>
    have hopen : Clean [Marked.fresh '['] := @clean_fresh ['['] (by decide)
    have hclose : Clean [Marked.fresh ']'] := @clean_fresh [']'] (by decide)
    refine ⟨.mapping [("password", .list [.text value])],
      opening "password" ++ [.fresh '['] ++ [.fresh '"'], escape value.toList,
      [.fresh '"'] ++ [.fresh ']'] ++ [.fresh '\x7d'], ?_, (hopening.append hopen).append hquote,
      by simp [Marked.fresh], (hquote.append hclose).append hbrace, hescape⟩
    rw [hiddenDumps_single fun _ ↦ rfl, hidesValue_password, hiddenDumps, hiddenItems, hiddenItems,
      List.intercalate_singleton, hiddenDumps, Bool.or_true, if_pos rfl, quoted]
    simp
  | ⟨some key, value⟩ =>
    have hkey : isWordKey data key = true := hholder key rfl
    by_cases hcovered : covered table data key = true
    · have hbehind : behindQuote value.toList ≠ [] :=
        fun hnil ↦ hstays (.inr ⟨key, rfl, hcovered, hnil⟩)
      have hmem : '"' ∈ value.toList := by
        by_contra hnot
        apply hbehind
        have hall : ∀ c ∈ value.toList, decide (c ≠ '"') = true :=
          fun c hc ↦ decide_eq_true fun heq ↦ hnot (heq ▸ hc)
        rw [behindQuote, List.dropWhile_eq_nil_iff.mpr hall]
        rfl
      have hfree : '"' ∉ key.toList := notMem_wordKey hkey (by decide) (by decide)
      have hopen : openPart key.toList = [] := by
        rw [openPart, List.rdropWhile_eq_nil_iff]
        exact fun c hc ↦ decide_eq_true fun heq ↦ hfree (heq ▸ hc)
      have hlast : lastPart ([] ++ key.toList) = key.toList := lastPart_append (by simp) hfree
      have hname : Clean (key.toList.map .fresh) :=
        clean_fresh ⟨notMem_wordKey hkey (by decide) (by decide),
          notMem_wordKey hkey (by decide) (by decide)⟩
      have hhidden : Clean (([('"' : Char), ':', ' ', '"'] ++ redacted.toList ++ ['"']).map .fresh) :=
        clean_fresh (by decide)
      refine ⟨.mapping [("password", .mapping [(key, .text value)])],
        opening "password" ++ [.fresh '\x7b'] ++ hiddenPair .fresh '"' (key.toList.map .fresh),
        escape (behindQuote value.toList), [.fresh '"'] ++ [.fresh '\x7d'] ++ [.fresh '\x7d'], ?_,
        (hopening.append (@clean_fresh ['\x7b'] (by decide))).append
          ((hquote.append hname).append hhidden), ?_, (hquote.append hbrace).append hbrace,
        fun hnil ↦ hbehind (escape_eq_nil hnil)⟩
      · rw [hiddenDumps_single fun _ ↦ rfl, hidesValue_password, hiddenDumps_single_covered hcovered,
          Bool.or_true, Bool.true_or, if_pos rfl, coveredPair, hopen, remainder, if_pos hmem,
          show lastPart key.toList = key.toList from hlast]
        simp [escape]
      · intro c hc
        rw [hiddenPair, List.map_append, ← List.append_assoc, ← List.append_assoc, List.map_singleton,
          List.getLast?_concat, Option.mem_some_iff] at hc
        rw [← hc]
        rfl
    · refine ⟨.mapping [("password", .mapping [(key, .text value)])],
        opening "password" ++ opening key ++ [.fresh '"'], escape value.toList,
        [.fresh '"'] ++ [.fresh '\x7d'] ++ [.fresh '\x7d'], ?_,
        (hopening.append (clean_opening hkey)).append hquote, by simp [Marked.fresh],
        (hquote.append hbrace).append hbrace, hescape⟩
      rw [hiddenDumps_single fun _ ↦ rfl, hidesValue_password,
        hiddenDumps_single fun h ↦ absurd h hcovered, hiddenDumps, Bool.or_true, Bool.true_or,
        if_pos rfl, quoted]
      simp

/-- A string disappears from the text of every value when it is to disappear; any other string in a
list or under a key of word characters stays in the text of some value. -/
theorem redactText_hides (table : CaseTable) (data : WordData) (source : Source) :
    (Disappears table data source →
      ∀ value, ∀ c ∈ redactedDumps table data value, c.source ≠ some source) ∧
    ((∀ key ∈ source.holder, isWordKey data key = true) →
      (∀ value, ∀ c ∈ redactedDumps table data value, c.source ≠ some source) →
        Disappears table data source) := by
  constructor
  · intro hdisappears value c hc hsource
    have hmem := source_of_redactText hc hsource
    rw [hideQuotes_dumps] at hmem
    exact source_of_hiddenDumps hdisappears false none value (fun _ h ↦ by cases h) c hmem hsource
  · intro hholder hnever
    by_contra hstays
    have ⟨value, before, middle, after, hparts⟩ := exists_parts hholder hstays
    have hkept := hparts.kept
    rw [← hideQuotes_dumps] at hkept
    have ⟨c, hc, hmark⟩ := exists_mem_redactText hkept.1 hkept.2
    exact hnever value c hc hmark

end Survivors

theorem redactText_hides_token :
    (∀ value, ∀ c ∈ redactedDumps asciiCase .ascii value,
      c.source ≠ some ⟨some "NGC_API_KEY", "hunter2"⟩) ∧
    ¬ ∀ value, ∀ c ∈ redactedDumps asciiCase .ascii value,
      c.source ≠ some ⟨some "password", "a\"secret"⟩ := by
  constructor
  · exact (redactText_hides asciiCase .ascii ⟨some "NGC_API_KEY", "hunter2"⟩).1
      (.inr ⟨"NGC_API_KEY", rfl, by decide +kernel, by decide +kernel⟩)
  · intro hnever
    have hdisappears := (redactText_hides asciiCase .ascii ⟨some "password", "a\"secret"⟩).2
      (fun key hkey ↦ by rw [← Option.some.inj hkey]; decide +kernel) hnever
    match hdisappears with
    | .inl hempty => exact absurd hempty (by decide)
    | .inr ⟨_, _, _, hnone⟩ => exact absurd hnone (by decide +kernel)

/-- A quote in a password is taken for its end. -/
theorem escaped_quote_survives :
    isWordKey .ascii "password" = true ∧ isSensitiveKey asciiCase "password" = true ∧
      redactDict asciiCase (.mapping [("password", .text "a\"secret")]) =
        .mapping [("password", .text redacted)] ∧
      (redactedDumps asciiCase .ascii (.mapping [("password", .text "a\"secret")])).map Marked.char =
        "\x7b\"password\": \"***\"secret\"\x7d".toList ∧
      ∃ c ∈ redactedDumps asciiCase .ascii (.mapping [("password", .text "a\"secret")]),
        c.source = some ⟨some "password", "a\"secret"⟩ := by
  have hsensitive : isSensitiveKey asciiCase "password" = true := by decide +kernel
  refine ⟨by decide +kernel, hsensitive, ?_, by decide +kernel, by decide +kernel⟩
  rw [redactDict, redactEntries, redactEntries, hsensitive]
  rfl

end IsvValidation.Redaction
