import IsvValidation.Redaction.TextWays

/-!
# The first pattern on a written value

In the text of a value the pattern for double quotes matches exactly at the keys whose part behind
their last quote is a name in ASCII and whose value is a string, and takes the value up to its first
quote. So its substitution is computed along the structure of the value.
-/

namespace IsvValidation.Redaction

open Host Library

/-! ## Escapes -/

theorem hexDigit_isAlphanum {digit : ℕ} (h : digit < 16) :
    (hexDigit digit).isAlphanum = true ∧ (hexDigit digit).toNat < 128 := by
  have hall : ∀ d : Fin 16, (hexDigit d).isAlphanum = true ∧ (hexDigit d).toNat < 128 := by
    decide +kernel
  exact hall ⟨digit, h⟩

/-- A character of an escape behind its backslash. -/
def isEscapeTail (c : Char) : Bool := c.isAlphanum || c == '\\'

theorem mem_unitEscape {code : ℕ} {c : Char} (h : c ∈ unitEscape code) :
    isEscapeTail c = true ∧ c.toNat < 128 := by
  have hdigit : ∀ n, isEscapeTail (hexDigit (n % 16)) = true ∧ (hexDigit (n % 16)).toNat < 128 := by
    intro n
    have ⟨halphanum, hlt⟩ := hexDigit_isAlphanum (Nat.mod_lt n (by decide : 16 > 0))
    exact ⟨by rw [isEscapeTail, halphanum, Bool.true_or], hlt⟩
  simp only [unitEscape, List.mem_cons, List.not_mem_nil, or_false] at h
  match h with
  | .inl heq => rw [heq]; decide
  | .inr (.inl heq) => rw [heq]; decide
  | .inr (.inr (.inl heq)) => rw [heq]; exact hdigit _
  | .inr (.inr (.inr (.inl heq))) => rw [heq]; exact hdigit _
  | .inr (.inr (.inr (.inr (.inl heq)))) => rw [heq]; exact hdigit _
  | .inr (.inr (.inr (.inr (.inr heq)))) => rw [heq]; exact hdigit _

/-- What a character is written as: itself, an escaped quote, or an escape without a quote. -/
theorem escapeChar_cases (c : Char) :
    (escapeChar c = [c] ∧ c ≠ '"' ∧ c ≠ '\\' ∧ c.toNat < 128) ∨
    (c = '"' ∧ escapeChar c = ['\\', '"']) ∨
    (c ≠ '"' ∧ ∃ tail, escapeChar c = '\\' :: tail ∧
      ∀ d ∈ tail, isEscapeTail d = true ∧ d.toNat < 128) := by
  have hunits : ∀ first others, (∀ d ∈ others, isEscapeTail d = true ∧ d.toNat < 128) →
      ∃ tail, unitEscape first ++ others = '\\' :: tail ∧
        ∀ d ∈ tail, isEscapeTail d = true ∧ d.toNat < 128 := by
    intro first others hothers
    refine ⟨(unitEscape first).tail ++ others, rfl, fun d hd ↦ ?_⟩
    match List.mem_append.mp hd with
    | .inl hd => exact mem_unitEscape (List.mem_of_mem_tail hd)
    | .inr hd => exact hothers d hd
  by_cases hquote : c = '"'
  · exact .inr (.inl ⟨hquote, by rw [escapeChar, if_pos hquote]⟩)
  by_cases hback : c = '\\'
  · exact .inr (.inr ⟨hquote, ['\\'], by rw [hback]; rfl, by decide⟩)
  by_cases hprintable : 32 ≤ c.toNat ∧ c.toNat ≤ 126
  · refine .inl ⟨?_, hquote, hback, by omega⟩
    have hne : ∀ d : Char, d.toNat < 32 → c ≠ d := by
      intro d hd heq
      rw [heq] at hprintable
      omega
    rw [escapeChar, if_neg hquote, if_neg hback, if_neg (hne _ (by decide)),
      if_neg (hne _ (by decide)), if_neg (hne _ (by decide)), if_neg (hne _ (by decide)),
      if_neg (hne _ (by decide)), if_pos hprintable]
  · refine .inr (.inr ⟨hquote, ?_⟩)
    unfold escapeChar
    rw [if_neg hquote, if_neg hback]
    split_ifs
    · exact ⟨['n'], rfl, by decide⟩
    · exact ⟨['r'], rfl, by decide⟩
    · exact ⟨['t'], rfl, by decide⟩
    · exact ⟨['f'], rfl, by decide⟩
    · exact ⟨['b'], rfl, by decide⟩
    · have hone := hunits c.toNat [] fun d hd ↦ absurd hd List.not_mem_nil
      rwa [List.append_nil] at hone
    · exact hunits _ _ fun d hd ↦ mem_unitEscape hd

theorem escape_append (front tail : List Char) : escape (front ++ tail) = escape front ++ escape tail :=
  List.flatMap_append

theorem escape_cons (c : Char) (tail : List Char) : escape (c :: tail) = escapeChar c ++ escape tail :=
  List.flatMap_cons

theorem escape_ascii (text : List Char) : ∀ c ∈ escape text, c.toNat < 128 := by
  intro c hc
  have ⟨d, _, hd⟩ := List.mem_flatMap.mp hc
  match escapeChar_cases d with
  | .inl ⟨hsame, _, _, hlt⟩ =>
    rw [hsame, List.mem_singleton] at hd
    rwa [hd]
  | .inr (.inl ⟨_, heq⟩) =>
    rw [heq] at hd
    revert hd
    revert c
    simp only [List.mem_cons, List.not_mem_nil, or_false]
    rintro c _ (heq | heq) <;> rw [heq] <;> decide
  | .inr (.inr ⟨_, tail, heq, htail⟩) =>
    rw [heq] at hd
    match List.mem_cons.mp hd with
    | .inl hback => rw [hback]; decide
    | .inr hd => exact (htail c hd).2

theorem escape_eq_nil {text : List Char} (h : escape text = []) : text = [] := by
  match text with
  | [] => rfl
  | c :: rest =>
    rw [escape_cons, List.append_eq_nil_iff] at h
    match escapeChar_cases c with
    | .inl ⟨heq, _⟩ => rw [heq] at h; cases h.1
    | .inr (.inl ⟨_, heq⟩) => rw [heq] at h; cases h.1
    | .inr (.inr ⟨_, tail, heq, _⟩) => rw [heq] at h; cases h.1

/-- Escapes bring nothing but letters, digits and backslashes along. -/
theorem notMem_escape {x : Char} (hx : isEscapeTail x = false) {text : List Char} (h : x ∉ text) :
    x ∉ escape text := by
  have hback : x ≠ '\\' := by
    intro heq
    rw [heq] at hx
    exact absurd hx (by decide)
  intro hmem
  have ⟨c, hc, hin⟩ := List.mem_flatMap.mp hmem
  match escapeChar_cases c with
  | .inl ⟨heq, _⟩ =>
    rw [heq, List.mem_singleton] at hin
    exact h (hin ▸ hc)
  | .inr (.inl ⟨hquote, heq⟩) =>
    rw [heq, List.mem_cons, List.mem_singleton] at hin
    match hin with
    | .inl hin => exact hback hin
    | .inr hin => exact h (by rwa [hin, ← hquote])
  | .inr (.inr ⟨_, tail, heq, htail⟩) =>
    rw [heq] at hin
    match List.mem_cons.mp hin with
    | .inl hin => exact hback hin
    | .inr hin => exact absurd (htail x hin).1 (by rw [hx]; exact Bool.false_ne_true)

/-- A quote in a written string is the first one, the last one, or that of an escape. -/
theorem quote_position {text before after : List Char}
    (h : escape text ++ ['"'] = before ++ '"' :: after) :
    (before = escape text ∧ after = []) ∨
      ∃ front tail, text = front ++ '"' :: tail ∧ before = escape front ++ ['\\'] ∧
        after = escape tail ++ ['"'] := by
  induction text generalizing before with
  | nil =>
    match before with
    | [] => exact .inl ⟨rfl, (List.cons.inj h).2.symm⟩
    | c :: before => exact absurd (congrArg List.length h) (by simp [escape])
  | cons c rest ih =>
    rw [escape_cons, List.append_assoc] at h
    match List.append_eq_append_iff.mp h with
    | .inl ⟨middle, hbefore, hrest⟩ =>
      match ih hrest with
      | .inl ⟨hmiddle, hafter⟩ => exact .inl ⟨by rw [hbefore, hmiddle, escape_cons], hafter⟩
      | .inr ⟨front, tail, htext, hmiddle, hafter⟩ =>
        exact .inr ⟨c :: front, tail, by rw [htext]; rfl,
          by rw [hbefore, hmiddle, escape_cons, List.append_assoc], hafter⟩
    | .inr ⟨middle, hchar, hrest⟩ =>
      match middle with
      | [] =>
        -- the quote stands right behind what is written for the character
        rw [List.nil_append] at hrest
        rw [List.append_nil] at hchar
        match @ih [] hrest.symm with
        | .inl ⟨hempty, hafter⟩ =>
          exact .inl ⟨by rw [← hchar, escape_cons, ← hempty, List.append_nil], hafter⟩
        | .inr ⟨front, tail, _, hempty, _⟩ =>
          exact absurd hempty.symm (List.append_ne_nil_of_right_ne_nil _ (List.cons_ne_nil _ _))
      | d :: middle =>
        rw [List.cons_append, List.cons.injEq] at hrest
        rw [← hrest.1] at hchar
        match escapeChar_cases c with
        | .inl ⟨heq, hquote, _⟩ =>
          have hmem : '"' ∈ escapeChar c := hchar ▸ List.mem_append_right _ List.mem_cons_self
          rw [heq, List.mem_singleton] at hmem
          exact absurd hmem.symm hquote
        | .inr (.inl ⟨hc, heq⟩) =>
          rw [heq] at hchar
          match before, hchar with
          | [_], hchar =>
            rw [List.singleton_append, List.cons.injEq, List.cons.injEq] at hchar
            exact .inr ⟨[], rest, by rw [hc]; rfl, by rw [← hchar.1]; rfl, by
              rw [hrest.2, ← hchar.2.2, List.nil_append]⟩
          | [], hchar => exact absurd (List.cons.inj hchar).1 (by decide)
          | _ :: _ :: _, hchar =>
            have hlength := congrArg List.length hchar
            simp only [List.length_append, List.length_cons, List.length_nil] at hlength
            omega
        | .inr (.inr ⟨_, tail, heq, htail⟩) =>
          have hmem : '"' ∈ escapeChar c := hchar ▸ List.mem_append_right _ List.mem_cons_self
          rw [heq] at hmem
          match List.mem_cons.mp hmem with
          | .inl hback => exact absurd hback (by decide)
          | .inr hin => exact absurd (htail _ hin).1 (by decide)

/-- A name up to a quote is the rest of the written string. -/
theorem run_to_quote {text name after rest : List Char} (hquote : '"' ∉ name) (hback : '\\' ∉ name)
    (h : escape text ++ '"' :: rest = name ++ '"' :: after) :
    name = escape text ∧ after = rest ∧ escape text = text ∧ '"' ∉ text := by
  induction text generalizing name with
  | nil =>
    match name with
    | [] => exact ⟨rfl, (List.cons.inj h).2.symm, rfl, List.not_mem_nil⟩
    | c :: name =>
      have hfirst : '"' = c := (List.cons.inj h).1
      exact absurd (hfirst ▸ List.mem_cons_self) hquote
  | cons c text ih =>
    rw [escape_cons, List.append_assoc] at h
    match escapeChar_cases c with
    | .inl ⟨heq, hc, _⟩ =>
      rw [heq, List.singleton_append] at h
      match name with
      | [] => exact absurd (List.cons.inj h).1 hc
      | d :: name =>
        rw [List.cons_append, List.cons.injEq] at h
        have ⟨hrun, hafter, hsame, hfree⟩ := ih (fun hmem ↦ hquote (List.mem_cons_of_mem d hmem))
          (fun hmem ↦ hback (List.mem_cons_of_mem d hmem)) h.2
        refine ⟨by rw [escape_cons, heq, hrun, ← h.1, List.singleton_append], hafter, ?_, ?_⟩
        · rw [escape_cons, heq, hsame, List.singleton_append]
        · rw [List.mem_cons, not_or]
          exact ⟨Ne.symm hc, hfree⟩
    | .inr hescaped =>
      have ⟨tail, htail⟩ : ∃ tail, escapeChar c = '\\' :: tail := by
        match hescaped with
        | .inl ⟨_, heq⟩ => exact ⟨_, heq⟩
        | .inr ⟨_, tail, heq, _⟩ => exact ⟨tail, heq⟩
      rw [htail, List.cons_append] at h
      match name with
      | [] => exact absurd (List.cons.inj h).1 (by decide)
      | d :: name =>
        have hfirst : '\\' = d := (List.cons.inj h).1
        exact absurd (hfirst ▸ List.mem_cons_self) hback

/-! ## Matches at a written string -/

section Matches

variable {table : CaseTable} {data : WordData}

/-- The part of a key behind its last quote. -/
def lastPart (key : List Char) : List Char := key.rtakeWhile (· ≠ '"')

/-- The pattern can start in a key: the part behind its last quote is a name in ASCII. -/
def covered (table : CaseTable) (data : WordData) (key : String) : Bool :=
  ((lastPart key.toList).all fun c ↦ decide (c.toNat < 128) && isKeyChar data c) &&
    isSensitiveKey table (.ofList (lastPart key.toList))

theorem lastPart_append {front tail : List Char} (hfront : ∀ c ∈ front.getLast?, c = '"')
    (htail : '"' ∉ tail) : lastPart (front ++ tail) = tail := by
  have htaken : ∀ c ∈ tail.reverse, decide (c ≠ '"') = true := by
    intro c hc
    rw [List.mem_reverse] at hc
    exact decide_eq_true fun heq ↦ htail (heq ▸ hc)
  rw [lastPart, List.rtakeWhile, List.reverse_append, List.takeWhile_append_of_pos htaken]
  match hreverse : front.reverse with
  | [] => rw [List.takeWhile_nil, List.append_nil, List.reverse_reverse]
  | c :: others =>
    have hlast : front.getLast? = some c := by
      rw [List.getLast?_eq_head?_reverse, hreverse]
      rfl
    rw [hfront c hlast, List.takeWhile_cons_of_neg (by decide), List.append_nil, List.reverse_reverse]

/-- A name which starts behind a quote in a written string goes up to the end of the string. -/
theorem rest_of_way {tail : List Char} {after rest name more : List Marked} {second : Marked}
    (hafter : after.map Marked.char = escape tail ++ ['"'])
    (hname : IsName table data (name.map Marked.char)) (hsecond : second.char = '"')
    (h : after ++ rest = name ++ second :: more) :
    name.map Marked.char = tail ∧ escape tail = tail ∧ '"' ∉ tail ∧ rest = more := by
  have hchars := congrArg (List.map Marked.char) h
  rw [List.map_append, List.map_append, List.map_cons, hafter, hsecond, List.append_assoc,
    List.singleton_append] at hchars
  have ⟨hrun, _, hsame, hfree⟩ := run_to_quote (hname.notMem (by decide) (by decide))
    (hname.notMem (by decide) (by decide)) hchars
  have hlength : after.length = (name ++ [second]).length := by
    have hlengths := congrArg List.length hafter
    rw [← hrun, List.length_map, List.length_append, List.length_map] at hlengths
    rw [hlengths, List.length_append]
    rfl
  have hsplit : after ++ rest = (name ++ [second]) ++ more := by rw [h]; simp
  exact ⟨hrun.trans hsame, hsame, hfree, (List.append_inj hsplit hlength).2⟩

/-- What is known of a match which starts in a written string: it starts at the last quote of what
is inside, and goes on behind the string. -/
theorem way_in_quoted {source : Option Source} {text : List Char} {before after rest : List Marked}
    {c : Marked} {name left : List Marked} (hquoted : quoted source text = before ++ c :: after)
    (hrest : ∀ d ∈ rest.head?, d.char.toNat < 128 ∧
      (d.char.isAlphanum || d.char == '_' || d.char == '-') = false)
    (hway : (name, left) ∈ quotedPair table data Marked.char '"' (c :: after ++ rest)) :
    ∃ front tail, text = front ++ tail ∧ lastPart text = tail ∧ escape tail = tail ∧
      IsName table data tail ∧ before.length = (escape front).length ∧
      ∃ spaces colon spaces' third others, rest = spaces ++ colon :: spaces' ++ third :: others ∧
        colon.char = ':' ∧ third.char = '"' ∧ (∀ d ∈ spaces, data.isSpace d.char = true) ∧
        ∀ d ∈ spaces', data.isSpace d.char = true := by
  have ⟨first, second, spaces, colon, spaces', third, value, fourth, htext, hname, hfirst, hsecond,
    hthird, _, hcolon, hspaces, hspaces', _⟩ := mem_quotedPair.mp hway
  have hstart : c.char = '"' ∧ after ++ rest =
      name ++ second :: (spaces ++ colon :: spaces' ++ third :: (value ++ fourth :: left)) := by
    simp only [List.cons_append, List.append_assoc, List.cons.injEq] at htext ⊢
    exact ⟨htext.1 ▸ hfirst, htext.2⟩
  have hchars := congrArg (List.map Marked.char) hquoted
  simp only [quoted, Marked.fresh, List.map_append, List.map_cons, List.map_map, List.map_nil,
    hstart.1] at hchars
  rw [show Marked.char ∘ (fun c ↦ ⟨c, source⟩) = id from rfl, List.map_id] at hchars
  match before with
  | [] =>
    rw [List.map_nil, List.nil_append, List.cons_append, List.cons.injEq] at hchars
    have ⟨hrun, hsame, hfree, hmore⟩ := rest_of_way hchars.2.symm hname hsecond hstart.2
    have hlast : lastPart ([] ++ text) = text := lastPart_append (by simp) hfree
    exact ⟨[], text, rfl, hlast, hsame, hrun ▸ hname, rfl, spaces, colon, spaces', third, _, hmore,
      hcolon, hthird, hspaces, hspaces'⟩
  | b :: before =>
    rw [List.map_cons, List.cons_append, List.cons_append, List.cons.injEq] at hchars
    match quote_position hchars.2 with
    | .inl ⟨_, hend⟩ =>
      -- behind the string no name starts
      rw [List.map_eq_nil_iff] at hend
      rw [hend, List.nil_append] at hstart
      match name, hname.ne_nil with
      | d :: others, _ =>
        have ⟨hascii, hnot⟩ := hrest d (by rw [hstart.2]; rfl)
        exact absurd (List.mem_map_of_mem List.mem_cons_self) (hname.notMem hascii hnot)
    | .inr ⟨front, tail, htext', hbefore, hafter⟩ =>
      have ⟨hrun, hsame, hfree, hmore⟩ := rest_of_way hafter hname hsecond hstart.2
      have hlength := congrArg List.length hbefore
      rw [List.length_map, List.length_append] at hlength
      refine ⟨front ++ ['"'], tail, by rw [htext']; simp, ?_, hsame, hrun ▸ hname, ?_, spaces, colon,
        spaces', third, _, hmore, hcolon, hthird, hspaces, hspaces'⟩
      · rw [htext', show front ++ '"' :: tail = (front ++ ['"']) ++ tail by simp]
        exact lastPart_append (by simp) hfree
      · rw [List.length_cons, hlength, escape_append, List.length_append]
        rfl

/-- Where a match starts, the part behind the last quote is a name in ASCII. -/
theorem covered_of_isName {key : String} {tail : List Char} (hlast : lastPart key.toList = tail)
    (hsame : escape tail = tail) (hname : IsName table data tail) : covered table data key = true := by
  have hkey : ∀ c ∈ tail, c.toNat < 128 ∧ isKeyChar data c = true := by
    intro c hc
    have hascii := escape_ascii tail c (hsame.symm ▸ hc)
    exact ⟨hascii, hname.isKeyChar hc hascii⟩
  rw [covered, hlast, Bool.and_eq_true, List.all_eq_true]
  refine ⟨fun c hc ↦ ?_, (isName_iff fun c hc ↦ (hkey c hc).2).mp hname⟩
  rw [decide_eq_true (hkey c hc).1, Bool.true_and]
  exact (hkey c hc).2

end Matches

end IsvValidation.Redaction
