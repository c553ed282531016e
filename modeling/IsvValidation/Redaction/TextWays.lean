import IsvValidation.Redaction.FreeText

/-!
# What the patterns of free text match

The ways in which the patterns match, said in terms of the characters which they take. The ASCII
characters of a sensitive word are key characters, so that those of the name in a match are, too.
-/

namespace IsvValidation.Redaction

open Host Library

/-! ## Characters -/

section Characters

variable {data : WordData}

theorem isKeyChar_ascii {c : Char} (h : c.toNat < 128) :
    isKeyChar data c = (c.isAlphanum || c == '_' || c == '-') := by
  rw [isKeyChar, WordData.isWord_ascii h]

/-- A character which `re.IGNORECASE` matches with a letter of a pattern. -/
theorem isAlphanum_of_fold {table : CaseTable} {p c : Char} (hp : p.isLower = true)
    (hc : c.toNat < 128) (h : table.fold c = table.fold p) : c.isAlphanum = true := by
  have hlow : p.toNat < 128 := by
    have hbounds : (decide ('a'.val ≤ p.val) && decide (p.val ≤ 'z'.val)) = true := hp
    rw [Bool.and_eq_true, decide_eq_true_eq, decide_eq_true_eq] at hbounds
    have hle : p.toNat ≤ 122 := hbounds.2
    omega
  rw [table.ascii c hc, table.ascii p hlow] at h
  have hall : ∀ n m : Fin 128, (Char.ofNat m).isLower = true →
      (Char.ofNat n).toLower = (Char.ofNat m).toLower → (Char.ofNat n).isAlphanum = true := by
    decide +kernel
  have hfound := hall ⟨c.toNat, hc⟩ ⟨p.toNat, hlow⟩
  simp only [Char.ofNat_toNat] at hfound
  exact hfound hp h

end Characters

/-! ## Sensitive words -/

section Words

variable (table : CaseTable)

/-- A run of characters which a word of a pattern matches. -/
def SpelledAs (word : String) (run : List Char) : Prop :=
  List.Forall₂ (fun p c ↦ table.fold c = table.fold p) word.toList run

/-- A run of characters which words with `[-_]?` between them match. -/
def Spells : List String → List Char → Prop
  | [], run => run = []
  | [last], run => SpelledAs table last run
  | first :: rest, run => ∃ start joint others, run = start ++ joint ++ others ∧
      SpelledAs table first start ∧ (joint = [] ∨ joint = ['-'] ∨ joint = ['_']) ∧ Spells rest others

/-- A run of characters which one of the sensitive patterns matches. -/
def Secret (run : List Char) : Prop := ∃ words ∈ sensitiveKeyPatterns, Spells table words run

variable {table} {α : Type} {look : α → Char}

theorem mem_spelling {word : String} {run text rest : List α} :
    (run, rest) ∈ spelling table look word text ↔
      text = run ++ rest ∧ SpelledAs table word (run.map look) := by
  rw [spelling, Pattern.mem_word, SpelledAs, List.forall₂_map_left_iff, List.forall₂_map_right_iff]
  simp only [beq_iff_eq]

theorem mem_spellings {words : List String} {run text rest : List α} :
    (run, rest) ∈ spellings table look words text ↔
      text = run ++ rest ∧ Spells table words (run.map look) := by
  induction words generalizing run text rest with
  | nil =>
    rw [spellings, Pattern.mem_pure, Spells, List.map_eq_nil_iff]
    constructor
    · rintro ⟨hrun, hrest⟩
      exact ⟨by rw [hrun, hrest, List.nil_append], hrun⟩
    · rintro ⟨htext, hrun⟩
      exact ⟨hrun, by rw [htext, hrun, List.nil_append]⟩
  | cons first others ih =>
    cases others with
    | nil => rw [spellings, mem_spelling, Spells]
    | cons second more =>
      rw [spellings, Spells]
      · simp only [Pattern.mem_bind, Pattern.mem_pure, Pattern.mem_optional, Pattern.mem_one,
          mem_spelling, ih, Bool.or_eq_true, beq_iff_eq]
        constructor
        · rintro ⟨start, after, ⟨htext, hstart⟩, joint, behind, hjoint, last, left, ⟨hbehind, hlast⟩,
            hrun, hleft⟩
          rcases hjoint with ⟨c, hsome, hafter, hc⟩ | ⟨hnone, hafter⟩
          · refine ⟨by rw [htext, hafter, hbehind, hrun, hsome, hleft]; simp,
              start.map look, [look c], last.map look, by rw [hrun, hsome]; simp, hstart, ?_, hlast⟩
            rw [List.cons.injEq, List.cons.injEq]
            simpa using hc
          · exact ⟨by rw [htext, ← hafter, hbehind, hrun, hnone, hleft]; simp,
              start.map look, [], last.map look, by rw [hrun, hnone]; simp, hstart, .inl rfl, hlast⟩
        · rintro ⟨htext, start, joint, last, hrun, hstart, hjoint, hlast⟩
          rw [List.map_eq_append_iff] at hrun
          obtain ⟨front, tail, hsplit, hfront, htail⟩ := hrun
          rw [List.map_eq_append_iff] at hfront
          obtain ⟨head, middle, hsplit', hhead, hmiddle⟩ := hfront
          rw [hsplit, hsplit'] at htext
          rcases middle with _ | ⟨c, _ | ⟨d, others⟩⟩
          · exact ⟨head, tail ++ rest, ⟨by rw [htext]; simp, hhead ▸ hstart⟩, none, tail ++ rest,
              .inr ⟨rfl, rfl⟩, tail, rest, ⟨rfl, htail ▸ hlast⟩, by rw [hsplit, hsplit']; simp, rfl⟩
          · refine ⟨head, c :: (tail ++ rest), ⟨by rw [htext]; simp, hhead ▸ hstart⟩, some c,
              tail ++ rest, .inl ⟨c, rfl, rfl, ?_⟩, tail, rest, ⟨rfl, htail ▸ hlast⟩,
              by rw [hsplit, hsplit']; simp, rfl⟩
            rw [← hmiddle] at hjoint
            simpa using hjoint
          · rw [← hmiddle] at hjoint
            simp at hjoint
      · intro h
        cases h
      · intro h
        cases h

theorem mem_keyAlt {run text rest : List α} :
    (run, rest) ∈ keyAlt table look text ↔ text = run ++ rest ∧ Secret table (run.map look) := by
  rw [keyAlt, Pattern.mem_oneOf, Secret]
  constructor
  · intro ⟨pattern, hmem, hway⟩
    have ⟨words, hwords, heq⟩ := List.mem_map.mp hmem
    rw [← heq, mem_spellings] at hway
    exact ⟨hway.1, words, hwords, hway.2⟩
  · intro ⟨htext, words, hwords, hspells⟩
    exact ⟨_, List.mem_map_of_mem hwords, mem_spellings.mpr ⟨htext, hspells⟩⟩

/-- A key is sensitive when it has a sensitive run. -/
theorem isSensitiveKey_iff {key : String} :
    isSensitiveKey table key = true ↔
      ∃ before run after, key.toList = before ++ run ++ after ∧ Secret table run := by
  rw [isSensitiveKey, Pattern.found_iff]
  constructor
  · intro ⟨before, after, run, rest, hkey, hway⟩
    rw [mem_keyAlt, List.map_id] at hway
    exact ⟨before, run, rest, by rw [hkey, hway.1, List.append_assoc], hway.2⟩
  · intro ⟨before, run, after, hkey, hsecret⟩
    refine ⟨before, run ++ after, run, after, by rw [hkey, List.append_assoc], ?_⟩
    rw [mem_keyAlt, List.map_id]
    exact ⟨rfl, hsecret⟩

/-- The words of the sensitive patterns are in lower case, and none is empty. -/
theorem words_lower : ∀ words ∈ sensitiveKeyPatterns, words ≠ [] ∧
    ∀ word ∈ words, word.toList ≠ [] ∧ ∀ p ∈ word.toList, p.isLower = true := by
  decide +kernel

theorem SpelledAs.ne_nil {word : String} {run : List Char} (h : SpelledAs table word run)
    (hword : word.toList ≠ []) : run ≠ [] := by
  intro hrun
  rw [hrun, SpelledAs, List.forall₂_nil_right_iff] at h
  exact hword h

theorem SpelledAs.isAlphanum {word : String} {run : List Char} (h : SpelledAs table word run)
    (hlower : ∀ p ∈ word.toList, p.isLower = true) {c : Char} (hc : c ∈ run)
    (hascii : c.toNat < 128) : c.isAlphanum = true := by
  have ⟨i, hi, hget⟩ := List.getElem_of_mem hc
  have hi' : i < word.toList.length := h.length_eq ▸ hi
  have hfold := h.get hi' hi
  rw [List.get_eq_getElem, List.get_eq_getElem, hget] at hfold
  exact isAlphanum_of_fold (hlower _ (List.getElem_mem hi')) hascii hfold

theorem Spells.ne_nil {words : List String} {run : List Char} (h : Spells table words run)
    (hne : words ≠ []) (hwords : ∀ word ∈ words, word.toList ≠ []) : run ≠ [] := by
  match words with
  | [last] =>
    rw [Spells] at h
    exact h.ne_nil (hwords last List.mem_cons_self)
  | first :: second :: more =>
    rw [Spells] at h
    · have ⟨start, joint, others, hrun, hstart, _⟩ := h
      rw [hrun, List.append_assoc]
      exact List.append_ne_nil_of_left_ne_nil (hstart.ne_nil (hwords first List.mem_cons_self)) _
    · intro h
      cases h

theorem Spells.isKeyChar {data : WordData} {words : List String} {run : List Char}
    (h : Spells table words run) (hlower : ∀ word ∈ words, ∀ p ∈ word.toList, p.isLower = true)
    {c : Char} (hc : c ∈ run) (hascii : c.toNat < 128) : isKeyChar data c = true := by
  have halphanum : c.isAlphanum = true → Redaction.isKeyChar data c = true := by
    intro h
    rw [isKeyChar_ascii hascii, h]
    rfl
  induction words generalizing run with
  | nil =>
    rw [Spells] at h
    rw [h] at hc
    exact absurd hc List.not_mem_nil
  | cons first others ih =>
    match others with
    | [] =>
      rw [Spells] at h
      exact halphanum (h.isAlphanum (hlower first List.mem_cons_self) hc hascii)
    | second :: more =>
      rw [Spells] at h
      · have ⟨start, joint, last, hrun, hstart, hjoint, hlast⟩ := h
        rw [hrun, List.mem_append, List.mem_append] at hc
        match hc with
        | .inl (.inl hc) =>
          exact halphanum (hstart.isAlphanum (hlower first List.mem_cons_self) hc hascii)
        | .inl (.inr hc) =>
          have hcase : c = '-' ∨ c = '_' := by
            match hjoint with
            | .inl heq => rw [heq] at hc; exact absurd hc List.not_mem_nil
            | .inr (.inl heq) => rw [heq, List.mem_singleton] at hc; exact .inl hc
            | .inr (.inr heq) => rw [heq, List.mem_singleton] at hc; exact .inr hc
          match hcase with
          | .inl heq => rw [heq, isKeyChar_ascii (by decide)]; decide
          | .inr heq => rw [heq, isKeyChar_ascii (by decide)]; decide
        | .inr hc =>
          exact ih hlast (fun word hword ↦ hlower word (List.mem_cons_of_mem first hword)) hc
      · intro h
        cases h

theorem Secret.ne_nil {run : List Char} (h : Secret table run) : run ≠ [] := by
  have ⟨words, hwords, hspells⟩ := h
  have ⟨hne, hlower⟩ := words_lower words hwords
  exact hspells.ne_nil hne fun word hword ↦ (hlower word hword).1

/-- A sensitive run has no ASCII characters but key characters. -/
theorem Secret.isKeyChar {data : WordData} {run : List Char} (h : Secret table run) {c : Char}
    (hc : c ∈ run) (hascii : c.toNat < 128) : isKeyChar data c = true := by
  have ⟨words, hwords, hspells⟩ := h
  exact hspells.isKeyChar (fun word hword ↦ ((words_lower words hwords).2 word hword).2) hc hascii

end Words

/-! ## Names -/

section Names

variable (table : CaseTable) (data : WordData)

/-- The name of a pair: key characters around a sensitive run. -/
def IsName (name : List Char) : Prop :=
  ∃ before run after, name = before ++ run ++ after ∧ Secret table run ∧
    (∀ c ∈ before, isKeyChar data c = true) ∧ ∀ c ∈ after, isKeyChar data c = true

variable {table data} {α : Type} {look : α → Char}

theorem mem_keyName {name text rest : List α} :
    (name, rest) ∈ keyName table data look text ↔
      text = name ++ rest ∧ IsName table data (name.map look) := by
  rw [keyName]
  simp only [Pattern.mem_bind, Pattern.mem_pure, Pattern.mem_many, mem_keyAlt]
  constructor
  · rintro ⟨before, behind, ⟨htext, hbefore⟩, run, behind', ⟨hbehind, hsecret⟩, after, left,
      ⟨hbehind', hafter⟩, hname, hleft⟩
    refine ⟨by rw [htext, hbehind, hbehind', hname, hleft]; simp, before.map look, run.map look,
      after.map look, by rw [hname]; simp, hsecret, ?_, ?_⟩
    · exact List.forall_mem_map.mpr hbefore
    · exact List.forall_mem_map.mpr hafter
  · rintro ⟨htext, before, run, after, hname, hsecret, hbefore, hafter⟩
    rw [List.map_eq_append_iff] at hname
    obtain ⟨front, tail, hsplit, hfront, htail⟩ := hname
    rw [List.map_eq_append_iff] at hfront
    obtain ⟨head, middle, hsplit', hhead, hmiddle⟩ := hfront
    refine ⟨head, middle ++ tail ++ rest, ⟨by rw [htext, hsplit, hsplit']; simp, ?_⟩, middle,
      tail ++ rest, ⟨by simp, hmiddle ▸ hsecret⟩, tail, rest, ⟨rfl, ?_⟩, by rw [hsplit, hsplit'], rfl⟩
    · exact List.forall_mem_map.mp (hhead ▸ hbefore)
    · exact List.forall_mem_map.mp (htail ▸ hafter)

theorem IsName.ne_nil {name : List Char} (h : IsName table data name) : name ≠ [] := by
  have ⟨before, run, after, hname, hsecret, _⟩ := h
  rw [hname, List.append_assoc]
  exact List.append_ne_nil_of_right_ne_nil _ (List.append_ne_nil_of_left_ne_nil hsecret.ne_nil _)

theorem IsName.isKeyChar {name : List Char} (h : IsName table data name) {c : Char}
    (hc : c ∈ name) (hascii : c.toNat < 128) : isKeyChar data c = true := by
  have ⟨before, run, after, hname, hsecret, hbefore, hafter⟩ := h
  rw [hname, List.mem_append, List.mem_append] at hc
  match hc with
  | .inl (.inl hc) => exact hbefore c hc
  | .inl (.inr hc) => exact hsecret.isKeyChar hc hascii
  | .inr hc => exact hafter c hc

/-- A character which is no part of a name. -/
theorem IsName.notMem {name : List Char} (h : IsName table data name) {c : Char}
    (hascii : c.toNat < 128) (hc : (c.isAlphanum || c == '_' || c == '-') = false) : c ∉ name := by
  intro hmem
  have hkey := h.isKeyChar hmem hascii
  rw [isKeyChar_ascii hascii, hc] at hkey
  cases hkey

/-- Key characters are a name when the key they make is sensitive. -/
theorem isName_iff {name : List Char} (h : ∀ c ∈ name, isKeyChar data c = true) :
    IsName table data name ↔ isSensitiveKey table (.ofList name) = true := by
  rw [isSensitiveKey_iff, String.toList_ofList]
  constructor
  · intro ⟨before, run, after, hname, hsecret, _⟩
    exact ⟨before, run, after, hname, hsecret⟩
  · intro ⟨before, run, after, hname, hsecret⟩
    exact ⟨before, run, after, hname, hsecret, fun c hc ↦ h c (by rw [hname]; simp [hc]),
      fun c hc ↦ h c (by rw [hname]; simp [hc])⟩

/-! ## Pairs -/

theorem mem_quotedPair {quote : Char} {name text rest : List α} :
    (name, rest) ∈ quotedPair table data look quote text ↔
      ∃ first second spaces colon spaces' third value fourth,
        text = first :: name ++ second :: spaces ++ colon :: spaces' ++ third :: value ++ fourth :: rest ∧
        IsName table data (name.map look) ∧ look first = quote ∧ look second = quote ∧
        look third = quote ∧ look fourth = quote ∧ look colon = ':' ∧
        (∀ c ∈ spaces, data.isSpace (look c) = true) ∧ (∀ c ∈ spaces', data.isSpace (look c) = true) ∧
        ∀ c ∈ value, look c ≠ quote := by
  rw [quotedPair]
  simp only [Pattern.mem_bind, Pattern.mem_pure, Pattern.mem_many, Pattern.mem_one, mem_keyName,
    beq_iff_eq, bne_iff_ne]
  constructor
  · rintro ⟨first, _, ⟨h1, hfirst⟩, _, _, ⟨h2, hname⟩, second, _, ⟨h3, hsecond⟩, spaces, _,
      ⟨h4, hspaces⟩, colon, _, ⟨h5, hcolon⟩, spaces', _, ⟨h6, hspaces'⟩, third, _, ⟨h7, hthird⟩,
      value, _, ⟨h8, hvalue⟩, fourth, _, ⟨h9, hfourth⟩, hcapture, hrest⟩
    subst hcapture hrest h9 h8 h7 h6 h5 h4 h3 h2 h1
    exact ⟨first, second, spaces, colon, spaces', third, value, fourth, by simp, hname, hfirst, hsecond,
      hthird, hfourth, hcolon, hspaces, hspaces', hvalue⟩
  · rintro ⟨first, second, spaces, colon, spaces', third, value, fourth, htext, hname, hfirst, hsecond,
      hthird, hfourth, hcolon, hspaces, hspaces', hvalue⟩
    refine ⟨first, _, ⟨?_, hfirst⟩, name, _, ⟨rfl, hname⟩, second, _, ⟨rfl, hsecond⟩, spaces, _,
      ⟨rfl, hspaces⟩, colon, _, ⟨rfl, hcolon⟩, spaces', _, ⟨rfl, hspaces'⟩, third, _, ⟨rfl, hthird⟩,
      value, _, ⟨rfl, hvalue⟩, fourth, _, ⟨rfl, hfourth⟩, rfl, rfl⟩
    rw [htext]
    simp

theorem mem_keyValue {name text rest : List (Option α × α)}
    (h : (name, rest) ∈ keyValue table data look text) :
    ∃ spaces equals others, text = name ++ spaces ++ equals :: others ++ rest ∧
      IsName table data (name.map fun c ↦ look c.2) ∧ look equals.2 = '=' ∧
      ∀ c ∈ spaces, data.isSpace (look c.2) = true := by
  rw [keyValue] at h
  simp only [Pattern.mem_bind, Pattern.mem_pure, Pattern.mem_many, Pattern.mem_one, mem_keyName,
    Pattern.mem_some, Pattern.mem_edge, beq_iff_eq] at h
  obtain ⟨_, _, ⟨h1, _⟩, _, _, ⟨h2, hname⟩, spaces, _, ⟨h3, hspaces⟩, equals, _, ⟨h4, hequals⟩,
    spaces', _, ⟨h5, _⟩, value, _, ⟨h6, _⟩, hcapture, hrest⟩ := h
  subst hcapture hrest h6 h5 h4 h3
  refine ⟨spaces, equals, spaces' ++ value, ?_, hname, hequals, hspaces⟩
  rw [← h1, h2]
  simp

theorem consuming_quotedPair (quote : Char) : (quotedPair table data look quote).Consuming := by
  intro text name rest hway
  have ⟨first, second, spaces, colon, spaces', third, value, fourth, htext, _⟩ :=
    mem_quotedPair.mp hway
  refine ⟨first, name ++ second :: spaces ++ colon :: spaces' ++ third :: value ++ [fourth], ?_⟩
  rw [htext]
  simp

theorem consuming_keyValue : (keyValue table data look).Consuming := by
  intro text name rest hway
  have ⟨spaces, equals, others, htext, _⟩ := mem_keyValue hway
  match name ++ spaces, htext with
  | [], htext => exact ⟨equals, others, by rw [htext, List.nil_append]⟩
  | c :: taken, htext => exact ⟨c, taken ++ equals :: others, by rw [htext]; simp⟩

end Names

end IsvValidation.Redaction
