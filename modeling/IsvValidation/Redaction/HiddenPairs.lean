import IsvValidation.Library.Sequence
import IsvValidation.Redaction.DumpedText

/-!
# A value after the first substitution

Where a covered key stands over a string, the name is kept, and of the string what comes behind its
first quote. Everything else is written as before.
-/

namespace IsvValidation.Redaction

open Host Library

section Hidden

variable (table : CaseTable) (data : WordData) (hides : String → Bool)

/-- The first substitution. -/
def hideQuotes (text : List Marked) : List Marked :=
  (quotedPair table data Marked.char '"').sub (hiddenPair .fresh '"') text

/-- What stands in front of the last quote of a written key. -/
def openPart (key : List Char) : List Char := key.rdropWhile (· ≠ '"')

/-- What stands behind the first quote of a string. -/
def behindQuote (value : List Char) : List Char := (value.dropWhile (· ≠ '"')).tail

/-- A string value behind its first quote; of a string without quotes nothing is left. -/
def remainder (source : Option Source) (value : List Char) : List Marked :=
  if '"' ∈ value then (escape (behindQuote value)).map (⟨·, source⟩) ++ [.fresh '"'] else []

/-- A covered key and its string after the substitution. -/
def coveredPair (source : Option Source) (key value : List Char) : List Marked :=
  (Marked.fresh '"' :: (escape (openPart key)).map .fresh).dropLast ++
    hiddenPair .fresh '"' ((lastPart key).map .fresh) ++ remainder source value

def Output.text? : Output → Option String
  | .text value => some value
  | _ => none

mutual

/-- A value after the first substitution. -/
def hiddenDumps (hidden : Bool) (holder : Option String) : Output → List Marked
  | .text value => quoted (if hidden then some ⟨holder, value⟩ else none) value.toList
  | .list items =>
    .fresh '[' :: [Marked.fresh ',', .fresh ' '].intercalate (hiddenItems hidden items) ++ [.fresh ']']
  | .mapping entries =>
    .fresh '\x7b' :: [Marked.fresh ',', .fresh ' '].intercalate (hiddenEntries hidden entries) ++
      [.fresh '\x7d']

def hiddenItems (hidden : Bool) : List Output → List (List Marked)
  | [] => []
  | item :: rest => hiddenDumps hidden none item :: hiddenItems hidden rest

def hiddenEntries (hidden : Bool) : List (String × Output) → List (List Marked)
  | [] => []
  | (key, value) :: rest =>
    (match (if covered table data key then value.text? else none) with
      | some text =>
        coveredPair (if hidden || hides key then some ⟨some key, text⟩ else none) key.toList text.toList
      | none =>
        quoted none key.toList ++ [.fresh ':', .fresh ' '] ++
          hiddenDumps (hidden || hides key) (some key) value) :: hiddenEntries hidden rest

end

end Hidden

/-! ## Scanning -/

section Scanning

variable {table : CaseTable} {data : WordData} {hides : String → Bool}

/-- What follows a value. -/
def Ends (rest : List Marked) : Prop :=
  ∀ c ∈ rest.head?, c.char = ',' ∨ c.char = ']' ∨ c.char = '\x7d'

/-- The substitution turns a text into a result, whatever follows as it can follow a value. -/
def Scans (table : CaseTable) (data : WordData) (text result : List Marked) : Prop :=
  ∀ rest, Ends rest → hideQuotes table data (text ++ rest) = result ++ hideQuotes table data rest

theorem hideQuotes_cons {c : Marked} (hc : c.char ≠ '"') (rest : List Marked) :
    hideQuotes table data (c :: rest) = c :: hideQuotes table data rest := by
  apply Pattern.sub_of_none
  rw [Pattern.match?_eq_none]
  intro name left hway
  have ⟨first, _, _, _, _, _, _, _, htext, _, hfirst, _⟩ := mem_quotedPair.mp hway
  simp only [List.cons_append, List.cons.injEq] at htext
  exact hc (htext.1 ▸ hfirst)

/-- A written string in which no match starts stays. -/
theorem hideQuotes_quoted {source : Option Source} {text : List Char} {rest : List Marked}
    (h : ∀ before c after name left, quoted source text = before ++ c :: after →
      (name, left) ∉ quotedPair table data Marked.char '"' (c :: after ++ rest)) :
    hideQuotes table data (quoted source text ++ rest) =
      quoted source text ++ hideQuotes table data rest := by
  apply Pattern.sub_append_of_none
  intro before c after heq
  rw [Pattern.match?_eq_none]
  exact fun name left ↦ h before c after name left heq

theorem Ends.head {rest : List Marked} (h : Ends rest) :
    ∀ d ∈ rest.head?, d.char.toNat < 128 ∧
      (d.char.isAlphanum || d.char == '_' || d.char == '-') = false := by
  intro d hd
  match h d hd with
  | .inl heq => rw [heq]; decide
  | .inr (.inl heq) => rw [heq]; decide
  | .inr (.inr heq) => rw [heq]; decide

/-- A character which is neither white space nor a colon does not stand before a value. -/
theorem not_before_value {rest spaces others : List Marked} {colon : Marked}
    (h : rest = spaces ++ colon :: others) (hcolon : colon.char = ':')
    (hspaces : ∀ d ∈ spaces, data.isSpace d.char = true) : ¬ Ends rest := by
  intro hends
  match spaces with
  | [] =>
    have hhead := hends colon (by rw [h]; rfl)
    rw [hcolon] at hhead
    revert hhead
    decide
  | d :: more =>
    have hhead := hends d (by rw [h]; rfl)
    have hspace := hspaces d List.mem_cons_self
    match hhead with
    | .inl heq => rw [heq, data.asciiSpace _ (by decide)] at hspace; revert hspace; decide
    | .inr (.inl heq) => rw [heq, data.asciiSpace _ (by decide)] at hspace; revert hspace; decide
    | .inr (.inr heq) => rw [heq, data.asciiSpace _ (by decide)] at hspace; revert hspace; decide

/-- A string which is a value or an item stays. -/
theorem scans_quoted (source : Option Source) (text : List Char) :
    Scans table data (quoted source text) (quoted source text) := by
  intro rest hrest
  apply hideQuotes_quoted
  intro before c after name left heq hway
  have ⟨_, _, _, _, _, _, _, spaces, colon, spaces', third, others, hcolons, hcolon, _, hspaces, _⟩ :=
    way_in_quoted heq hrest.head hway
  rw [List.append_assoc, List.cons_append] at hcolons
  exact not_before_value hcolons hcolon hspaces hrest

/-- What stands between a key and its value. -/
def afterKey : List Marked := [.fresh ':', .fresh ' ']

theorem head_afterKey (rest : List Marked) : ∀ d ∈ (afterKey ++ rest).head?, d.char.toNat < 128 ∧
    (d.char.isAlphanum || d.char == '_' || d.char == '-') = false := by
  intro d hd
  rw [afterKey, List.cons_append, List.head?_cons, Option.mem_some_iff] at hd
  rw [← hd]
  decide

/-- Where a match goes on behind a key. -/
theorem value_of_afterKey {rest spaces spaces' others : List Marked} {colon third : Marked}
    (h : afterKey ++ rest = spaces ++ colon :: spaces' ++ third :: others) (hthird : third.char = '"')
    (hspaces : ∀ d ∈ spaces, data.isSpace d.char = true) :
    ∃ more, spaces' = .fresh ' ' :: more ∧ rest = more ++ third :: others := by
  rw [List.append_assoc, List.cons_append] at h
  cases spaces with
  | cons d _ =>
    have hd : Marked.fresh ':' = d := (List.cons.inj h).1
    have hspace := hspaces d List.mem_cons_self
    rw [← hd, Marked.fresh, data.asciiSpace _ (by decide)] at hspace
    exact absurd hspace (by decide)
  | nil =>
    have hrest := (List.cons.inj h).2
    cases spaces' with
    | nil =>
      have hd : Marked.fresh ' ' = third := (List.cons.inj hrest).1
      rw [← hd] at hthird
      exact absurd hthird (by decide)
    | cons d more =>
      obtain ⟨hd, hmore⟩ := List.cons.inj hrest
      exact ⟨more, by rw [hd], hmore⟩

theorem hideQuotes_afterKey (rest : List Marked) :
    hideQuotes table data (afterKey ++ rest) = afterKey ++ hideQuotes table data rest := by
  rw [afterKey, List.cons_append, hideQuotes_cons (by decide), List.cons_append,
    hideQuotes_cons (by decide)]
  rfl

/-- A key which is not covered, or does not stand over a string, stays. -/
theorem hideQuotes_key {key : String} {rest : List Marked}
    (h : covered table data key = true → ∀ c ∈ rest.head?, c.char ≠ '"' ∧ data.isSpace c.char = false) :
    hideQuotes table data (quoted none key.toList ++ afterKey ++ rest) =
      quoted none key.toList ++ afterKey ++ hideQuotes table data rest := by
  rw [List.append_assoc, List.append_assoc, ← hideQuotes_afterKey]
  apply hideQuotes_quoted
  intro before c after name left heq hway
  have ⟨front, tail, _, hlast, hsame, hname, _, spaces, colon, spaces', third, others, hcolons,
    _, hthird, hspaces, hspaces'⟩ := way_in_quoted heq (head_afterKey rest) hway
  have hhead := h (covered_of_isName hlast hsame hname)
  have ⟨more, hmore, hrest⟩ := value_of_afterKey hcolons hthird hspaces
  match more with
  | [] => exact (hhead third (by rw [hrest]; rfl)).1 hthird
  | d :: _ =>
    have hspace := hspaces' d (by rw [hmore]; simp)
    rw [(hhead d (by rw [hrest]; rfl)).2] at hspace
    cases hspace

/-! ## Covered keys -/

theorem openPart_append (key : List Char) : openPart key ++ lastPart key = key := by
  rw [openPart, lastPart, List.rdropWhile, List.rtakeWhile, ← List.reverse_append,
    List.takeWhile_append_dropWhile, List.reverse_reverse]

/-- The name behind the last quote of a covered key is written as it is. -/
theorem escape_lastPart {key : String} (h : covered table data key = true) :
    escape (lastPart key.toList) = lastPart key.toList ∧ IsName table data (lastPart key.toList) := by
  rw [covered, Bool.and_eq_true, List.all_eq_true] at h
  have hkey : ∀ c ∈ lastPart key.toList, c.toNat < 128 ∧ isKeyChar data c = true := by
    intro c hc
    have hboth := h.1 c hc
    rwa [Bool.and_eq_true, decide_eq_true_eq] at hboth
  constructor
  · have hchar : ∀ c ∈ lastPart key.toList, escapeChar c = [c] := by
      intro c hc
      obtain ⟨hascii, hname⟩ := hkey c hc
      have hall : ∀ n : Fin 128, ((Char.ofNat n).isAlphanum || Char.ofNat n == '_' ||
          Char.ofNat n == '-') = true → escapeChar (Char.ofNat n) = [Char.ofNat n] := by
        decide +kernel
      have hthis := hall ⟨c.toNat, hascii⟩
      simp only [Char.ofNat_toNat] at hthis
      rw [isKeyChar_ascii hascii] at hname
      exact hthis hname
    rw [escape, List.flatMap_congr hchar]
    exact List.flatMap_pure_eq_map id _ |>.trans (List.map_id _)
  · exact (isName_iff fun c hc ↦ (hkey c hc).2).mpr h.2

theorem openPart_cases (key : List Char) :
    openPart key = [] ∨ ∃ front, openPart key = front ++ ['"'] := by
  by_cases hopen : openPart key = []
  · exact .inl hopen
  · have hquote := List.rdropWhile_last_not (fun c ↦ decide (c ≠ '"')) key hopen
    have hend : (openPart key).getLast hopen = '"' := by
      by_contra hne
      exact hquote (decide_eq_true hne)
    refine .inr ⟨(openPart key).dropLast, ?_⟩
    rw [← hend, List.dropLast_append_getLast]

/-- The last quote of a written key. -/
theorem quoted_openPart (key : List Char) :
    Marked.fresh '"' :: (escape (openPart key)).map .fresh =
      (Marked.fresh '"' :: (escape (openPart key)).map .fresh).dropLast ++ [.fresh '"'] := by
  match openPart_cases key with
  | .inl hopen =>
    rw [hopen]
    rfl
  | .inr ⟨front, hopen⟩ =>
    have hsplit : Marked.fresh '"' :: (escape (front ++ ['"'])).map .fresh =
        (Marked.fresh '"' :: (escape front ++ ['\\']).map .fresh) ++ [.fresh '"'] := by
      rw [escape_append, show escape ['"'] = ['\\'] ++ ['"'] from rfl, ← List.append_assoc,
        List.map_append]
      rfl
    rw [hopen, hsplit, List.dropLast_concat]

theorem behindQuote_append {front : List Char} (h : '"' ∉ front) (others : List Char) :
    behindQuote (front ++ '"' :: others) = others := by
  have hfront : ∀ c ∈ front, decide (c ≠ '"') = true :=
    fun c hc ↦ decide_eq_true fun heq ↦ h (heq ▸ hc)
  rw [behindQuote, List.dropWhile_append_of_pos hfront, List.dropWhile_cons_of_neg (by decide),
    List.tail_cons]

/-- A written string up to its first quote. -/
theorem first_quote (source : Option Source) (value : List Char) (rest : List Marked) :
    ∃ front fourth, (escape value).map (⟨·, source⟩) ++ Marked.fresh '"' :: rest =
        front ++ fourth :: (remainder source value ++ rest) ∧
      (∀ c ∈ front, c.char ≠ '"') ∧ fourth.char = '"' := by
  have hfree : ∀ text : List Char, '"' ∉ text →
      ∀ c ∈ (escape text).map (⟨·, source⟩ : Char → Marked), c.char ≠ '"' := by
    intro text htext c hc heq
    obtain ⟨d, hd, hdc⟩ := List.mem_map.mp hc
    rw [← hdc] at heq
    exact notMem_escape (by decide) htext (heq ▸ hd)
  by_cases hquote : '"' ∈ value
  · obtain ⟨front, others, hvalue, hbefore⟩ := List.eq_append_cons_of_mem hquote
    refine ⟨(escape front ++ ['\\']).map (⟨·, source⟩), ⟨'"', source⟩, ?_, ?_, rfl⟩
    · rw [remainder, if_pos hquote, hvalue, behindQuote_append hbefore, escape_append, escape_cons]
      simp [escapeChar]
    · intro c hc
      rw [List.map_append, List.mem_append] at hc
      rcases hc with hc | hc
      · exact hfree _ hbefore c hc
      · rw [List.map_cons, List.map_nil, List.mem_singleton] at hc
        rw [hc]
        exact (by decide : '\\' ≠ '"')
  · refine ⟨(escape value).map (⟨·, source⟩), .fresh '"', ?_, hfree value hquote, rfl⟩
    rw [remainder, if_neg hquote, List.nil_append]

/-- What is left of a string after a match stays. -/
theorem hideQuotes_remainder (source : Option Source) (value : List Char) {rest : List Marked}
    (hrest : Ends rest) :
    hideQuotes table data (remainder source value ++ rest) =
      remainder source value ++ hideQuotes table data rest := by
  rw [remainder]
  split_ifs
  · apply Pattern.sub_append_of_none
    intro before c after heq
    rw [Pattern.match?_eq_none]
    intro name left hway
    have hquoted : quoted source (behindQuote value) = (Marked.fresh '"' :: before) ++ c :: after := by
      rw [quoted, List.cons_append, heq, List.cons_append]
    obtain ⟨_, _, _, _, _, _, _, spaces, colon, spaces', third, others, hcolons, hcolon, _, hspaces, _⟩ :=
      way_in_quoted hquoted hrest.head hway
    rw [List.append_assoc, List.cons_append] at hcolons
    exact not_before_value hcolons hcolon hspaces hrest
  · rfl

/-- The match at a covered key which stands over a string. -/
theorem match_covered {key : String} (h : covered table data key = true) (source : Option Source)
    (value : List Char) (rest : List Marked) :
    ∃ c taken, (Marked.fresh '"' :: (lastPart key.toList).map .fresh ++ [.fresh '"']) ++ afterKey ++
        quoted source value ++ rest = c :: taken ++ (remainder source value ++ rest) ∧
      Pattern.match? (quotedPair table data Marked.char '"')
        (c :: taken ++ (remainder source value ++ rest)) =
          some ((lastPart key.toList).map .fresh, remainder source value ++ rest) := by
  obtain ⟨_, hname⟩ := escape_lastPart h
  have hchars : ((lastPart key.toList).map Marked.fresh).map Marked.char = lastPart key.toList := by
    rw [List.map_map, show Marked.char ∘ Marked.fresh = id from rfl, List.map_id]
  have hfree : ∀ name : List Marked, IsName table data (name.map Marked.char) →
      ∀ c ∈ name, ¬ c.char = '"' := by
    intro name hname c hc heq
    have hmem := List.mem_map_of_mem (f := Marked.char) hc
    rw [heq] at hmem
    exact hname.notMem (by decide) (by decide) hmem
  obtain ⟨front, fourth, hsplit, hfront, hfourth⟩ := first_quote source value rest
  refine ⟨.fresh '"', (lastPart key.toList).map .fresh ++ [Marked.fresh '"'] ++ afterKey ++
    Marked.fresh '"' :: front ++ [fourth], ?_, ?_⟩
  · rw [quoted]
    simp only [List.cons_append, List.append_assoc, List.nil_append]
    rw [hsplit]
  · apply Pattern.match?_of_unique
    · refine mem_quotedPair.mpr ⟨.fresh '"', .fresh '"', [], .fresh ':', [.fresh ' '], .fresh '"', front,
        fourth, by simp [afterKey], hchars.symm ▸ hname, rfl, rfl, rfl, hfourth, rfl, by simp, ?_, hfront⟩
      intro c hc
      rw [List.mem_singleton] at hc
      rw [hc, Marked.fresh, data.asciiSpace _ (by decide)]
      decide
    · rintro ⟨name, left⟩ hway
      obtain ⟨first, second, spaces, colon, spaces', third, value', fourth', htext, hname', _, hsecond,
        hthird, hfourth', _, hspaces, hspaces', hvalue⟩ := mem_quotedPair.mp hway
      simp only [List.cons_append, List.append_assoc, List.cons.injEq, List.nil_append] at htext
      obtain ⟨hsame, _, hbehind⟩ := Pattern.span_unique (p := fun c : Marked ↦ c.char = '"')
        (hfree _ (hchars.symm ▸ hname)) (hfree _ hname') rfl hsecond htext.2
      have hvalues : afterKey ++ Marked.fresh '"' :: (front ++ fourth :: (remainder source value ++ rest)) =
          spaces ++ colon :: spaces' ++ third :: (value' ++ fourth' :: left) := by
        rw [hbehind]
        simp
      obtain ⟨more, hmore, hrest⟩ := value_of_afterKey hvalues hthird hspaces
      cases more with
      | cons d _ =>
        have hspace := hspaces' d (by rw [hmore]; simp)
        rw [← (List.cons.inj hrest).1, Marked.fresh, data.asciiSpace _ (by decide)] at hspace
        exact absurd hspace (by decide)
      | nil =>
        obtain ⟨_, _, hleft⟩ := Pattern.span_unique (p := fun c : Marked ↦ c.char = '"') hfront hvalue
          hfourth hfourth' (List.cons.inj hrest).2
        rw [← hsame, ← hleft]

/-- A covered key and its string. -/
theorem scans_covered {key : String} (h : covered table data key = true) (source : Option Source)
    (value : List Char) :
    Scans table data (quoted none key.toList ++ afterKey ++ quoted source value)
      (coveredPair source key.toList value) := by
  intro rest hrest
  obtain ⟨hsame, _⟩ := escape_lastPart h
  generalize hopen : (Marked.fresh '"' :: (escape (openPart key.toList)).map .fresh).dropLast = start
  have hkey : quoted none key.toList =
      start ++ (Marked.fresh '"' :: (lastPart key.toList).map .fresh ++ [.fresh '"']) := by
    have hquoted : quoted none key.toList =
        Marked.fresh '"' :: (escape (openPart key.toList)).map .fresh ++
          (lastPart key.toList).map .fresh ++ [.fresh '"'] := by
      conv_lhs => rw [← openPart_append key.toList]
      rw [quoted, escape_append, hsame, List.map_append]
      simp only [List.cons_append, List.append_assoc]
      rfl
    rw [hquoted, quoted_openPart, hopen]
    simp
  have hlength : start.length = (escape (openPart key.toList)).length := by
    rw [← hopen, List.length_dropLast, List.length_cons, List.length_map, Nat.add_sub_cancel]
  obtain ⟨c, taken, htaken, hmatch⟩ := match_covered h source value rest
  have hstart : hideQuotes table data (start ++ (c :: taken ++ (remainder source value ++ rest))) =
      start ++ hideQuotes table data (c :: taken ++ (remainder source value ++ rest)) := by
    apply Pattern.sub_append_of_none
    intro before d after heq
    rw [Pattern.match?_eq_none]
    intro name left hway
    have hquoted : quoted none key.toList = before ++ d ::
        (after ++ (Marked.fresh '"' :: (lastPart key.toList).map .fresh ++ [.fresh '"'])) := by
      rw [hkey, heq]
      simp
    have hfound : (name, left) ∈ quotedPair table data Marked.char '"'
        (d :: (after ++ (Marked.fresh '"' :: (lastPart key.toList).map .fresh ++ [.fresh '"'])) ++
          (afterKey ++ (quoted source value ++ rest))) := by
      rw [← htaken] at hway
      simpa using hway
    obtain ⟨front, tail, htext, hlast, _, _, hbefore, _⟩ := way_in_quoted hquoted
      (head_afterKey (quoted source value ++ rest)) hfound
    have hfront : front = openPart key.toList := by
      have hboth := htext.symm.trans (openPart_append key.toList).symm
      rw [hlast] at hboth
      exact List.append_cancel_right hboth
    rw [hfront, ← hlength, heq, List.length_append, List.length_cons] at hbefore
    omega
  have htext : quoted none key.toList ++ afterKey ++ quoted source value ++ rest =
      start ++ (c :: taken ++ (remainder source value ++ rest)) := by
    rw [← htaken, hkey]
    simp
  rw [htext, hstart, hideQuotes, Pattern.sub_of_match hmatch, ← hideQuotes,
    hideQuotes_remainder source value hrest, coveredPair, hopen]
  simp

/-! ## The whole value -/

/-- Values between commas are turned one by one. -/
theorem hideQuotes_intercalate {parts results : List (List Marked)}
    (h : List.Forall₂ (Scans table data) parts results) {rest : List Marked} (hrest : Ends rest) :
    hideQuotes table data ([Marked.fresh ',', .fresh ' '].intercalate parts ++ rest) =
      [Marked.fresh ',', .fresh ' '].intercalate results ++ hideQuotes table data rest := by
  induction h with
  | nil => rfl
  | @cons part result parts results hpart hparts ih =>
    match parts, results, hparts with
    | [], [], _ =>
      rw [List.intercalate_singleton, List.intercalate_singleton]
      exact hpart rest hrest
    | next :: others, next' :: others', _ =>
      have hends : Ends ([Marked.fresh ',', .fresh ' '] ++
          ([Marked.fresh ',', .fresh ' '].intercalate (next :: others) ++ rest)) := by
        intro c hc
        rw [List.cons_append, List.head?_cons, Option.mem_some_iff] at hc
        rw [← hc]
        exact .inl rfl
      rw [List.intercalate_cons_cons, List.intercalate_cons_cons, List.append_assoc,
        List.append_assoc, hpart _ hends, List.cons_append, hideQuotes_cons (by decide),
        List.cons_append, hideQuotes_cons (by decide), List.nil_append, ih]
      simp

/-- A list or a mapping of values which are turned. -/
theorem scans_bracketed {first last : Marked} (hfirst : first.char ≠ '"')
    (hlast : last.char = ']' ∨ last.char = '\x7d') {parts results : List (List Marked)}
    (h : List.Forall₂ (Scans table data) parts results) :
    Scans table data (first :: [Marked.fresh ',', .fresh ' '].intercalate parts ++ [last])
      (first :: [Marked.fresh ',', .fresh ' '].intercalate results ++ [last]) := by
  intro rest _
  have hends : Ends (last :: rest) := by
    intro c hc
    rw [List.head?_cons, Option.mem_some_iff] at hc
    rw [← hc]
    exact .inr hlast
  have hquote : last.char ≠ '"' := by
    match hlast with
    | .inl heq => rw [heq]; decide
    | .inr heq => rw [heq]; decide
  rw [List.append_assoc, List.singleton_append, List.cons_append, hideQuotes_cons hfirst,
    hideQuotes_intercalate h hends, hideQuotes_cons hquote]
  simp

/-- A written value does not start with a quote unless it is a string. -/
theorem head_dumps {hidden : Bool} {holder : Option String} {value : Output}
    (h : value.text? = none) (rest : List Marked) :
    ∀ c ∈ (dumps hides hidden holder value ++ rest).head?,
      c.char ≠ '"' ∧ data.isSpace c.char = false := by
  intro c hc
  match value with
  | .list items =>
    rw [dumps, List.cons_append, List.cons_append, List.head?_cons, Option.mem_some_iff] at hc
    rw [← hc, Marked.fresh, data.asciiSpace _ (by decide)]
    decide
  | .mapping entries =>
    rw [dumps, List.cons_append, List.cons_append, List.head?_cons, Option.mem_some_iff] at hc
    rw [← hc, Marked.fresh, data.asciiSpace _ (by decide)]
    decide

mutual

/-- The first substitution goes along the structure of a value. -/
theorem scans_dumps (hidden : Bool) (holder : Option String) :
    ∀ value : Output, Scans table data (dumps hides hidden holder value)
      (hiddenDumps table data hides hidden holder value)
  | .text value => by
    rw [dumps, hiddenDumps]
    exact scans_quoted _ _
  | .list items => by
    rw [dumps, hiddenDumps]
    exact scans_bracketed (by decide) (.inl rfl) (forall₂_scans_items hidden items)
  | .mapping entries => by
    rw [dumps, hiddenDumps]
    exact scans_bracketed (by decide) (.inr rfl) (forall₂_scans_entries hidden entries)

theorem forall₂_scans_items (hidden : Bool) :
    ∀ items : List Output, List.Forall₂ (Scans table data) (dumpsItems hides hidden items)
      (hiddenItems table data hides hidden items)
  | [] => by
    rw [dumpsItems, hiddenItems]
    exact .nil
  | item :: rest => by
    rw [dumpsItems, hiddenItems]
    exact .cons (scans_dumps hidden none item) (forall₂_scans_items hidden rest)

theorem forall₂_scans_entries (hidden : Bool) :
    ∀ entries : List (String × Output),
      List.Forall₂ (Scans table data) (dumpsEntries hides hidden entries)
        (hiddenEntries table data hides hidden entries)
  | [] => by
    rw [dumpsEntries, hiddenEntries]
    exact .nil
  | (key, value) :: rest => by
    have hvalue := scans_dumps (hidden || hides key) (some key) value
    have hplain : (covered table data key = true → value.text? = none) →
        Scans table data
          (quoted none key.toList ++ afterKey ++ dumps hides (hidden || hides key) (some key) value)
          (quoted none key.toList ++ afterKey ++
            hiddenDumps table data hides (hidden || hides key) (some key) value) := by
      intro hnone behind hbehind
      rw [List.append_assoc, hideQuotes_key fun hcovered ↦ head_dumps (hnone hcovered) behind,
        hvalue behind hbehind, List.append_assoc _ _ (hideQuotes table data behind)]
    rw [dumpsEntries, hiddenEntries]
    refine .cons ?_ (forall₂_scans_entries hidden rest)
    by_cases hcovered : covered table data key = true
    · rw [if_pos hcovered]
      match value with
      | .text text =>
        rw [dumps]
        exact scans_covered hcovered _ text.toList
      | .list items => exact hplain fun _ ↦ rfl
      | .mapping entries => exact hplain fun _ ↦ rfl
    · rw [if_neg hcovered]
      exact hplain fun h ↦ absurd h hcovered

end

/-- A written value after the first substitution. -/
theorem hideQuotes_dumps (value : Output) :
    hideQuotes table data (dumps hides false none value) =
      hiddenDumps table data hides false none value := by
  have hscans : hideQuotes table data (dumps hides false none value ++ []) =
      hiddenDumps table data hides false none value ++ hideQuotes table data [] :=
    scans_dumps false none value [] fun c hc ↦ by cases hc
  rw [List.append_nil] at hscans
  rw [hscans, hideQuotes, Pattern.sub_nil, List.append_nil]

end Scanning

end IsvValidation.Redaction
