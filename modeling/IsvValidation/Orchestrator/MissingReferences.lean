import IsvValidation.Orchestrator.StepArguments

/-!
# Missing step references

An argument counts as lacking a reference only when all of it renders blank. Its literal text is
blank then, so the scan for step paths finds exactly the paths of its references, and the search for
`default(` finds exactly their fallbacks. An argument which prints anything else is passed on as it
is printed, whatever its references lead to.
-/

namespace IsvValidation.Orchestrator

open Config Host Library

/-! ## Scanning for step paths -/

section Scan

variable {host : Runtime}

theorem stepPaths_skip (taken rest : List Char) :
    stepPaths host taken.length (taken ++ rest) = stepPaths host 0 rest := by
  induction taken with
  | nil => rfl
  | cons c taken ih =>
    rw [List.length_cons, List.cons_append, stepPaths]
    exact ih

/-- Text without an `s` holds no step path. -/
theorem stepPaths_append_of_notMem {part : List Char} (h : 's' ∉ part) (rest : List Char) :
    stepPaths host 0 (part ++ rest) = stepPaths host 0 rest := by
  induction part with
  | nil => rfl
  | cons c part ih =>
    have hc : 's' ≠ c := fun heq ↦ h (heq ▸ List.mem_cons_self)
    have hfront : "steps.".toList.isPrefixOf (c :: (part ++ rest)) = false := by
      change (('s' == c) && _) = false
      rw [beq_eq_false_iff_ne.mpr hc, Bool.false_and]
    rw [List.cons_append, stepPaths]
    simp only [hfront, Bool.false_and, Bool.false_eq_true, if_false]
    exact ih fun hmem ↦ h (List.mem_cons_of_mem c hmem)

/-- A path which ends where no more characters of a path follow is found as a whole. -/
theorem stepPaths_path {path rest : List Char} (hne : path ≠ [])
    (hpath : ∀ c ∈ path, (host.unicode.isWord c || c == '.') = true)
    (hrest : ∀ c ∈ rest.head?, (host.unicode.isWord c || c == '.') = false) :
    stepPaths host 0 ("steps.".toList ++ path ++ rest) =
      .ofList path :: stepPaths host 0 rest := by
  have htake : (path ++ rest).takeWhile (fun d ↦ host.unicode.isWord d || d == '.') = path := by
    rw [List.takeWhile_append_of_pos hpath]
    match rest with
    | [] => simp
    | c :: rest =>
      rw [List.takeWhile_cons_of_neg (by rw [hrest c rfl]; exact Bool.false_ne_true),
        List.append_nil]
  have hskip : stepPaths host (path.length + 5) ("teps.".toList ++ path ++ rest) =
      stepPaths host 0 rest := by
    rw [← stepPaths_skip ("teps.".toList ++ path) rest, List.length_append, Nat.add_comm]
    rfl
  have hempty : path.isEmpty = false := by
    rw [← Bool.not_eq_true, List.isEmpty_iff]
    exact hne
  change stepPaths host 0 ('s' :: ("teps.".toList ++ path ++ rest)) = _
  rw [stepPaths]
  have hdrop : ('s' :: ("teps.".toList ++ path ++ rest)).drop 6 = path ++ rest := rfl
  have hfront : "steps.".toList.isPrefixOf ('s' :: ("teps.".toList ++ path ++ rest)) = true := rfl
  simp only [hdrop, htake, hfront, hempty, hskip]
  rfl

end Scan

/-! ## The text of an argument -/

theorem opensTemplate_of_infix {text : List Char} (h : ['\x7b', '\x7b'] <:+: text) :
    opensTemplate text = true := by
  have ⟨before, after, htext⟩ := h
  rw [← htext, List.append_assoc, List.cons_append, List.cons_append, List.nil_append]
  clear htext h
  induction before with
  | nil => rfl
  | cons c before ih =>
    match before with
    | [] =>
      by_cases hc : c = '\x7b'
      · rw [hc]
        rfl
      · rw [List.cons_append, opensTemplate]
        · exact ih
        · intro _ _ hbrace
          exact absurd hbrace hc
    | next :: before =>
      rw [List.cons_append] at ih
      rw [List.cons_append, List.cons_append]
      by_cases hc : c = '\x7b'
      · rw [hc, opensTemplate, ih, Bool.or_true]
      · rw [opensTemplate]
        · exact ih
        · intro _ _ hbrace
          exact absurd hbrace hc

section Written

variable {data : WordData} {arg : Argument data}

/-- Characters which neither words nor dots consist of. -/
theorem outside_path {c : Char} (hascii : c.toNat < 128)
    (h : (c.isAlphanum || c == '_' || c == '.') = false) :
    (data.isWord c || c == '.') = false := by
  rw [WordData.isWord_ascii hascii]
  exact h

namespace Reference

variable (ref : Reference data)

theorem dotted_path {c : Char} (h : c ∈ ref.dotted) : (data.isWord c || c == '.') = true := by
  match mem_intercalate h with
  | .inl hdot => rw [List.mem_singleton.mp hdot, beq_self_eq_true, Bool.or_true]
  | .inr ⟨part, hpart, hc⟩ =>
    have ⟨segment, hsegment, heq⟩ := List.mem_map.mp hpart
    rw [(ref.segments segment hsegment).2 c (heq ▸ hc), Bool.true_or]

theorem dotted_ne_nil : ref.dotted ≠ [] := by
  have ⟨segment, rest, hpath⟩ := List.exists_cons_of_ne_nil ref.ne_nil
  have hmem : segment ∈ ref.path := hpath ▸ List.mem_cons_self
  have hne : segment.toList ≠ [] := fun h ↦
    (ref.segments segment hmem).1 (String.toList_eq_nil_iff.mp h)
  have ⟨c, hc⟩ := List.exists_mem_of_ne_nil _ hne
  intro hempty
  have hdotted : c ∈ ref.dotted := mem_intercalate_of_mem (List.mem_map_of_mem hmem) hc
  rw [hempty] at hdotted
  exact List.not_mem_nil hdotted

/-- The dots cut the path into its segments. -/
theorem split_dotted : Text.split '.' (.ofList ref.dotted) = ref.path := by
  have hparts : ref.dotted.splitOn '.' = ref.path.map String.toList := by
    apply List.splitOn_intercalate
    · intro part hpart hdot
      have ⟨segment, hsegment, heq⟩ := List.mem_map.mp hpart
      have hword := (ref.segments segment hsegment).2 '.' (heq ▸ hdot)
      rw [WordData.isWord_ascii (by decide)] at hword
      exact absurd hword (by decide)
    · rw [ne_eq, List.map_eq_nil_iff]
      exact ref.ne_nil
  rw [Text.split, String.toList_ofList, hparts, List.map_map]
  apply List.map_id''
  exact fun _ ↦ String.ofList_toList

theorem unresolved_dotted (context : Context) :
    Orchestrator.unresolved context.steps (.ofList ref.dotted) = ref.unresolved context := by
  rw [Orchestrator.unresolved, split_dotted]
  rfl

end Reference

namespace Argument

theorem contains_text (part : String) :
    Text.contains arg.text part = decide (part.toList <:+: arg.chars) := by
  rw [Text.contains, text, String.toList_ofList]

/-- Every reference stands in the text as a whole. -/
theorem infix_chars {item : Reference data × String} (h : item ∈ arg.tail) :
    item.1.chars <:+: arg.chars := by
  have ⟨before, after, htail⟩ := List.append_of_mem h
  rw [chars, htail, List.flatMap_append, List.flatMap_cons]
  exact ⟨arg.head.toList ++ before.flatMap fun item ↦ item.1.chars ++ item.2.toList,
    item.2.toList ++ after.flatMap fun item ↦ item.1.chars ++ item.2.toList, by simp⟩

theorem isTemplate_text (h : arg.tail ≠ []) : Text.isTemplate arg.text = true := by
  have ⟨item, rest, htail⟩ := List.exists_cons_of_ne_nil h
  have hitem : item.1.chars <:+: arg.chars := infix_chars (htail ▸ List.mem_cons_self)
  rw [Text.isTemplate, contains_text, contains_text, Bool.and_eq_true, decide_eq_true_eq,
    decide_eq_true_eq]
  constructor
  · apply List.IsInfix.trans (List.IsPrefix.isInfix _) hitem
    exact ⟨_, by rw [Reference.chars, List.append_assoc, List.append_assoc, List.append_assoc,
      List.append_assoc]; rfl⟩
  · exact List.IsInfix.trans (List.IsSuffix.isInfix ⟨_, rfl⟩) hitem

theorem isTemplate_literal (h : arg.tail = []) : Text.isTemplate arg.text = false := by
  have hplain := arg.plain
  rw [h] at hplain
  have hopens : Text.contains arg.text "\x7b\x7b" = false := by
    rw [contains_text, decide_eq_false_iff_not, chars, h, List.flatMap_nil, List.append_nil]
    intro hwithin
    rw [literalsPlain, opensTemplate_of_infix hwithin] at hplain
    exact Bool.noConfusion hplain
  rw [Text.isTemplate, hopens, Bool.false_and]

/-- Where a reference has a fallback, the text holds `default(`. -/
theorem contains_default (h : arg.hasDefault = true) :
    Text.contains arg.text "default(" = true := by
  have ⟨ref, hmem, hsome⟩ := List.any_eq_true.mp h
  have ⟨item, hitem, href⟩ := List.mem_map.mp hmem
  have ⟨fallback, hfallback⟩ := Option.isSome_iff_exists.mp hsome
  rw [contains_text, decide_eq_true_eq]
  apply List.IsInfix.trans _ (infix_chars hitem)
  rw [href, Reference.chars, Reference.filterText, hfallback]
  exact ⟨['\x7b', '\x7b'] ++ List.replicate ref.blanks.1 ' ' ++ ("steps.".toList ++ ref.dotted) ++
      " | ".toList,
    fallback.source.toList ++ [')'] ++ List.replicate ref.blanks.2 ' ' ++ ['\x7d', '\x7d'],
    by simp⟩

end Argument

end Written

/-! ## Arguments which print blank -/

theorem mem_literalLines {c : Char} {text : List Char} (h : c ∈ text) :
    c = '\r' ∨ c ∈ literalLines text := by
  induction text using literalLines.induct with
  | case1 rest ih =>
    rw [literalLines, List.mem_cons]
    match List.mem_cons.mp h with
    | .inl hreturn => exact .inl hreturn
    | .inr h =>
      match List.mem_cons.mp h with
      | .inl hnewline => exact .inr (.inl hnewline)
      | .inr h => exact (ih h).imp_right .inr
  | case2 rest hnext ih =>
    rw [literalLines]
    · match List.mem_cons.mp h with
      | .inl hreturn => exact .inl hreturn
      | .inr h => exact (ih h).imp_right (List.mem_cons_of_mem _)
    · exact hnext
  | case3 d rest hpair hreturn ih =>
    rw [literalLines]
    · match List.mem_cons.mp h with
      | .inl heq => exact .inr (heq ▸ List.mem_cons_self)
      | .inr h => exact (ih h).imp_right (List.mem_cons_of_mem _)
    · exact hpair
    · exact hreturn
  | case4 => exact absurd h List.not_mem_nil

theorem mem_dropFinalNewline {c : Char} {text : List Char} (h : c ∈ text) :
    c = '\n' ∨ c ∈ dropFinalNewline text := by
  unfold dropFinalNewline
  split
  · next hlast =>
    have hsplit := List.dropLast_append_getLast? '\n' hlast
    rw [← hsplit, List.mem_append, List.mem_singleton] at h
    exact h.symm
  · exact .inr h

section Blank

variable {data : WordData} {host : Runtime} {find : List String → Option String}
  (hunicode : host.unicode = data.toUnicode)

include hunicode

theorem isSpace_ascii {c : Char} (hascii : c.toNat < 128) :
    host.unicode.isSpace c = asciiSpaces.contains c := by
  rw [hunicode]
  exact data.asciiSpace c hascii

theorem notMem_of_blank {text : List Char} (hblank : Blank host text) {c : Char}
    (hascii : c.toNat < 128) (hc : asciiSpaces.contains c = false) : c ∉ text := by
  intro hmem
  have hspace := hblank c hmem
  rw [isSpace_ascii hunicode hascii, hc] at hspace
  exact Bool.false_ne_true hspace

theorem blank_of_literalLines {text : List Char} (h : Blank host (literalLines text)) :
    Blank host text := by
  intro c hc
  match mem_literalLines hc with
  | .inl hreturn =>
    rw [hreturn, isSpace_ascii hunicode (by decide)]
    decide
  | .inr hc => exact h c hc

theorem blank_of_dropFinalNewline {text : List Char} (h : Blank host (dropFinalNewline text)) :
    Blank host text := by
  intro c hc
  match mem_dropFinalNewline hc with
  | .inl hnewline =>
    rw [hnewline, isSpace_ascii hunicode (by decide)]
    decide
  | .inr hc => exact h c hc

omit hunicode in
theorem blank_append {first second : List Char} :
    Blank host (first ++ second) ↔ Blank host first ∧ Blank host second :=
  List.forall_mem_append

theorem blank_of_printedTail {tail : List (Reference data × String)}
    (h : Blank host (printedTail find tail)) : ∀ item ∈ tail, Blank host item.2.toList := by
  induction tail with
  | nil => exact fun _ hitem ↦ absurd hitem List.not_mem_nil
  | cons item tail ih =>
    match item, tail with
    | (ref, text), [] =>
      rw [printedTail, blank_append] at h
      intro item hitem
      rw [List.mem_singleton.mp hitem]
      exact blank_of_literalLines hunicode (blank_of_dropFinalNewline hunicode h.2)
    | (ref, text), next :: tail =>
      rw [printedTail, blank_append, blank_append] at h
      · intro item hitem
        match List.mem_cons.mp hitem with
        | .inl heq =>
          rw [heq]
          exact blank_of_literalLines hunicode h.1.2
        | .inr hitem => exact ih h.2 item hitem
      · exact List.cons_ne_nil next tail

theorem blank_literals {arg : Argument data} (h : Blank host (arg.printed find)) :
    Blank host arg.head.toList ∧ ∀ item ∈ arg.tail, Blank host item.2.toList := by
  rw [Argument.printed, blank_append] at h
  exact ⟨blank_of_literalLines hunicode h.1, blank_of_printedTail hunicode h.2⟩

/-- The scan finds the path of a reference and goes on behind its braces. -/
theorem stepPaths_reference {ref : Reference data} (hnone : ref.fallback = none)
    (rest : List Char) :
    stepPaths host 0 (ref.chars ++ rest) = .ofList ref.dotted :: stepPaths host 0 rest := by
  have hchars : ref.chars ++ rest = ['\x7b', '\x7b'] ++ List.replicate ref.blanks.1 ' ' ++
      ("steps.".toList ++ ref.dotted ++
        (List.replicate ref.blanks.2 ' ' ++ ['\x7d', '\x7d'] ++ rest)) := by
    rw [Reference.chars, Reference.filterText, hnone]
    simp only [List.append_assoc, List.nil_append]
  have hpath : ∀ c ∈ ref.dotted, (host.unicode.isWord c || c == '.') = true := by
    rw [hunicode]
    exact fun c ↦ ref.dotted_path
  have hend : ∀ c ∈ (List.replicate ref.blanks.2 ' ' ++ ['\x7d', '\x7d'] ++ rest).head?,
      (host.unicode.isWord c || c == '.') = false := by
    intro c hc
    rw [hunicode]
    match hblanks : ref.blanks.2 with
    | 0 =>
      rw [hblanks] at hc
      rw [← Option.some.inj hc]
      exact outside_path (by decide) (by decide)
    | blanks + 1 =>
      rw [hblanks, List.replicate_succ] at hc
      rw [← Option.some.inj hc]
      exact outside_path (by decide) (by decide)
  rw [hchars, stepPaths_append_of_notMem (by simp), stepPaths_path ref.dotted_ne_nil hpath hend,
    stepPaths_append_of_notMem (by simp)]

theorem stepPaths_tail {tail : List (Reference data × String)}
    (hblank : ∀ item ∈ tail, Blank host item.2.toList)
    (hnone : ∀ item ∈ tail, item.1.fallback = none) :
    stepPaths host 0 (tail.flatMap fun item ↦ item.1.chars ++ item.2.toList) =
      tail.map fun item ↦ .ofList item.1.dotted := by
  induction tail with
  | nil => rfl
  | cons item tail ih =>
    have hliteral : 's' ∉ item.2.toList :=
      notMem_of_blank hunicode (hblank item List.mem_cons_self) (by decide) (by decide)
    rw [List.flatMap_cons, List.append_assoc,
      stepPaths_reference hunicode (hnone item List.mem_cons_self),
      stepPaths_append_of_notMem hliteral,
      ih (fun other hother ↦ hblank other (List.mem_cons_of_mem item hother))
        fun other hother ↦ hnone other (List.mem_cons_of_mem item hother)]
    rfl

variable {arg : Argument data}

omit hunicode in
theorem fallback_eq_none (h : arg.hasDefault = false) : ∀ item ∈ arg.tail, item.1.fallback = none := by
  intro item hitem
  have hsome := List.any_eq_false.mp h item.1 (List.mem_map_of_mem hitem)
  exact Option.not_isSome_iff_eq_none.mp hsome

omit hunicode in
theorem notMem_reference {ref : Reference data} (hnone : ref.fallback = none) : '(' ∉ ref.chars := by
  have hdotted : '(' ∉ ref.dotted := by
    intro hmem
    have hpath := ref.dotted_path hmem
    rw [outside_path (by decide) (by decide)] at hpath
    exact Bool.false_ne_true hpath
  rw [Reference.chars, Reference.filterText, hnone]
  simp [hdotted]

/-- Without a fallback, a blank argument holds no parenthesis. -/
theorem contains_default_eq (hblank : Blank host (arg.printed find)) :
    Text.contains arg.text "default(" = arg.hasDefault := by
  match hdefault : arg.hasDefault with
  | true => exact Argument.contains_default hdefault
  | false =>
    have hnone := fallback_eq_none hdefault
    have ⟨hhead, htail⟩ := blank_literals hunicode hblank
    have hchars : '(' ∉ arg.chars := by
      rw [Argument.chars, List.mem_append, List.mem_flatMap]
      intro h
      match h with
      | .inl h => exact notMem_of_blank hunicode hhead (by decide) (by decide) h
      | .inr ⟨item, hitem, h⟩ =>
        match List.mem_append.mp h with
        | .inl h => exact notMem_reference (hnone item hitem) h
        | .inr h => exact notMem_of_blank hunicode (htail item hitem) (by decide) (by decide) h
    rw [Argument.contains_text, decide_eq_false_iff_not]
    exact fun hwithin ↦ hchars (hwithin.subset (by decide))

/-- The missing path of a blank argument without fallbacks is that of its first unresolved
reference. -/
theorem findMissingStepPath_eq (context : Context) (hblank : Blank host (arg.printed find))
    (hdefault : arg.hasDefault = false) :
    findMissingStepPath host arg.text context.steps =
      (arg.references.find? fun ref ↦ ref.unresolved context).map fun ref ↦
        .ofList ref.dotted := by
  have hnone := fallback_eq_none hdefault
  have ⟨hhead, htail⟩ := blank_literals hunicode hblank
  have hliteral : 's' ∉ arg.head.toList :=
    notMem_of_blank hunicode hhead (by decide) (by decide)
  have hunresolved : (unresolved context.steps ∘ fun ref : Reference data ↦ .ofList ref.dotted) =
      fun ref ↦ ref.unresolved context := by
    funext ref
    exact ref.unresolved_dotted context
  have hpaths : (arg.tail.map fun item ↦ String.ofList item.1.dotted) =
      arg.references.map fun ref ↦ .ofList ref.dotted := by
    rw [Argument.references, List.map_map]
    rfl
  rw [findMissingStepPath, Argument.text, String.toList_ofList, Argument.chars,
    stepPaths_append_of_notMem hliteral, stepPaths_tail hunicode htail hnone, hpaths, List.find?_map,
    hunresolved]

end Blank

/-! ## Rendering one argument -/

section Render

variable {data : WordData} {host : Runtime} {context : Context} {arg : Argument data}

theorem renderArg_literal (h : arg.tail = []) :
    renderArg host context arg.text = .ok (some arg.text) := by
  rw [renderArg, Argument.isTemplate_literal h]
  rfl

/-- An argument on which Jinja fails is passed on with its braces. -/
theorem renderArg_failed (h : arg.tail ≠ []) {failure : String}
    (hfails : host.jinja.renderLenient arg.text context.data = .error failure) :
    renderArg host context arg.text = .ok (some arg.text) := by
  rw [renderArg, Argument.isTemplate_text h, if_pos rfl, hfails]

variable {find : List String → Option String} (htail : arg.tail ≠ [])
  (hrender : host.jinja.renderLenient arg.text context.data = .ok (.ofList (arg.printed find)))

include htail hrender

theorem renderArg_printed (h : ¬ Blank host (arg.printed find)) :
    renderArg host context arg.text = .ok (some (.ofList (arg.printed find))) := by
  have hstrip : host.unicode.strip (.ofList (arg.printed find)) ≠ "" := by
    rw [ne_eq, strip_eq_empty, String.toList_ofList]
    exact h
  rw [renderArg, Argument.isTemplate_text htail, if_pos rfl, hrender]
  exact if_pos hstrip

/-- A blank argument is dropped, unless it has no default and an unresolved reference. -/
theorem renderArg_blank (hunicode : host.unicode = data.toUnicode)
    (h : Blank host (arg.printed find)) :
    renderArg host context arg.text =
      if arg.hasDefault then .ok none
      else
        match arg.references.find? fun ref ↦ ref.unresolved context with
        | some ref => .error (.ofList ref.dotted)
        | none => .ok none := by
  have hstrip : ¬ host.unicode.strip (.ofList (arg.printed find)) ≠ "" := by
    rw [ne_eq, not_not, strip_eq_empty, String.toList_ofList]
    exact h
  rw [renderArg, Argument.isTemplate_text htail, if_pos rfl, hrender]
  simp only
  rw [if_neg hstrip, contains_default_eq hunicode h]
  match hdefault : arg.hasDefault with
  | true => rfl
  | false =>
    rw [findMissingStepPath_eq hunicode context h hdefault, if_neg Bool.false_ne_true,
      if_neg Bool.false_ne_true]
    cases arg.references.find? fun ref ↦ ref.unresolved context with
    | some ref => rfl
    | none => rfl

end Render

/-! ## Rendering the list of arguments -/

section Honest

variable {data : WordData} (host : Runtime) (context : Context)
  (find : List String → Option String)

/-- Jinja accepts the argument, all of it is blank without a default, and a reference is
unresolved. -/
structure Argument.StopsStep (arg : Argument data) : Prop where
  refers : arg.tail ≠ []
  accepted : ∃ result, host.jinja.renderLenient arg.text context.data = .ok result
  blank : Blank host (arg.printed find)
  noDefault : arg.hasDefault = false
  unresolved : ∃ ref ∈ arg.references, ref.unresolved context = true

/-- What Jinja prints is intended; where it prints nothing but blanks, the intended text is blank as
well, and because of a default. -/
def Argument.PrintsIntended (arg : Argument data) : Prop :=
  arg.tail ≠ [] →
    match host.jinja.renderLenient arg.text context.data with
    | .error _ => arg.chars = arg.intended host context
    | .ok _ =>
      if Blank host (arg.printed find) then
        arg.hasDefault = true ∧ Blank host (arg.intended host context)
      else arg.printed find = arg.intended host context

theorem literalLines_of_notMem {text : List Char} (h : '\r' ∉ text) : literalLines text = text := by
  fun_induction literalLines text with
  | case1 | case2 => simp at h
  | case3 c rest _ _ ih => rw [ih fun hmem ↦ h (List.mem_cons_of_mem c hmem)]
  | case4 => rfl

/-- Where each reference prints what its keys lead to, and the literal text has neither a carriage return
nor a newline at its end, an argument is printed as intended. -/
theorem printed_eq_intended {arg : Argument data} (hhead : '\r' ∉ arg.head.toList)
    (htail : ∀ item ∈ arg.tail, item.1.printed find = item.1.intended host context ∧
      '\r' ∉ item.2.toList ∧ item.2.toList.getLast? ≠ some '\n') :
    arg.printed find = arg.intended host context := by
  rw [Argument.printed, Argument.intended, literalLines_of_notMem hhead]
  congr 1
  generalize arg.tail = tail at htail
  fun_induction printedTail find tail with
  | case1 => rfl
  | case2 ref text =>
    have ⟨href, hreturn, hlast⟩ := htail _ List.mem_cons_self
    simp [href, literalLines_of_notMem hreturn, dropFinalNewline, hlast]
  | case3 ref text rest _ ih =>
    have ⟨href, hreturn, _⟩ := htail _ List.mem_cons_self
    simp [href, literalLines_of_notMem hreturn, ih fun item hmem ↦ htail item (List.mem_cons_of_mem _ hmem)]

variable {host context find} {arg : Argument data} (hunicode : host.unicode = data.toUnicode)

include hunicode

theorem renderArg_error_iff (hprints : PrintsReferences host context find [arg]) :
    (∃ missing, renderArg host context arg.text = .error missing) ↔
      arg.StopsStep host context find := by
  by_cases htail : arg.tail = []
  · rw [renderArg_literal htail]
    exact ⟨fun ⟨_, h⟩ ↦ (nomatch h), fun h ↦ absurd htail h.refers⟩
  match hrender : host.jinja.renderLenient arg.text context.data with
  | .error failure =>
    rw [renderArg_failed htail hrender]
    constructor
    · exact fun ⟨_, h⟩ ↦ nomatch h
    · intro h
      have ⟨result, haccepted⟩ := h.accepted
      rw [hrender] at haccepted
      exact nomatch haccepted
  | .ok result =>
    have hresult := hprints arg List.mem_cons_self htail result hrender
    rw [hresult] at hrender
    by_cases hblank : Blank host (arg.printed find)
    · rw [renderArg_blank htail hrender hunicode hblank]
      match hdefault : arg.hasDefault with
      | true =>
        rw [if_pos rfl]
        constructor
        · exact fun ⟨_, h⟩ ↦ nomatch h
        · exact fun h ↦ absurd (hdefault.symm.trans h.noDefault) Bool.noConfusion
      | false =>
        rw [if_neg Bool.false_ne_true]
        cases hfind : arg.references.find? fun ref ↦ ref.unresolved context with
        | some ref =>
          have hmem := List.mem_of_find?_eq_some hfind
          have hlacks := List.find?_some hfind
          exact ⟨fun _ ↦ ⟨htail, ⟨_, hrender⟩, hblank, hdefault, ref, hmem, hlacks⟩,
            fun _ ↦ ⟨_, rfl⟩⟩
        | none =>
          constructor
          · exact fun ⟨_, h⟩ ↦ nomatch h
          · intro h
            have ⟨ref, hmem, hlacks⟩ := h.unresolved
            exact absurd hlacks (List.find?_eq_none.mp hfind ref hmem)
    · rw [renderArg_printed htail hrender hblank]
      exact ⟨fun ⟨_, h⟩ ↦ (nomatch h), fun h ↦ absurd h.blank hblank⟩

omit hunicode in
theorem outcome_eq_some_iff {text : List Char} (htext : ¬ Blank host text) :
    some (.ofList text) = arg.outcome host context ↔ text = arg.intended host context := by
  rw [Argument.outcome]
  constructor
  · intro h
    split at h
    · exact nomatch h
    · exact String.ofList_injective (Option.some.inj h)
  · intro h
    rw [← h, if_neg fun hblank ↦ htext hblank.1]

theorem not_blank_chars (htail : arg.tail ≠ []) : ¬ Blank host arg.chars := by
  have ⟨item, rest, heq⟩ := List.exists_cons_of_ne_nil htail
  have hitem : item.1.chars <:+: arg.chars := Argument.infix_chars (heq ▸ List.mem_cons_self)
  intro hblank
  exact notMem_of_blank hunicode hblank (by decide) (by decide) (hitem.subset List.mem_cons_self)

theorem renderArg_outcome_iff (hprints : PrintsReferences host context find [arg]) :
    renderArg host context arg.text = .ok (arg.outcome host context) ↔
      arg.PrintsIntended host context find := by
  unfold Argument.PrintsIntended
  by_cases htail : arg.tail = []
  · have hintended : arg.intended host context = arg.head.toList := by
      rw [Argument.intended, htail, List.flatMap_nil, List.append_nil]
    have hdefault : arg.hasDefault = false := by
      rw [Argument.hasDefault, Argument.references, htail]
      rfl
    have htext : arg.text = .ofList arg.head.toList := by
      rw [Argument.text, Argument.chars, htail, List.flatMap_nil, List.append_nil]
    have houtcome : arg.outcome host context = some arg.text := by
      rw [Argument.outcome, hdefault, hintended, htext]
      exact if_neg fun h ↦ Bool.false_ne_true h.2
    rw [renderArg_literal htail, houtcome]
    exact ⟨fun _ h ↦ absurd htail h, fun _ ↦ rfl⟩
  match hrender : host.jinja.renderLenient arg.text context.data with
  | .error failure =>
    rw [renderArg_failed htail hrender, Except.ok.injEq, Argument.text,
      outcome_eq_some_iff (not_blank_chars hunicode htail)]
    exact ⟨fun h _ ↦ h, fun h ↦ h htail⟩
  | .ok result =>
    have hresult := hprints arg List.mem_cons_self htail result hrender
    rw [hresult] at hrender
    by_cases hblank : Blank host (arg.printed find)
    · simp only [if_pos hblank]
      rw [renderArg_blank htail hrender hunicode hblank, Argument.outcome]
      match hdefault : arg.hasDefault with
      | true =>
        rw [if_pos rfl, Except.ok.injEq]
        constructor
        · intro h _
          split at h
          · next hboth => exact ⟨rfl, hboth.1⟩
          · exact nomatch h
        · intro h
          rw [if_pos ⟨(h htail).2, rfl⟩]
      | false =>
        rw [if_neg Bool.false_ne_true, if_neg fun h ↦ Bool.false_ne_true h.2]
        constructor
        · intro h
          cases hfind : arg.references.find? fun ref ↦ ref.unresolved context with
          | some ref => rw [hfind] at h; exact nomatch h
          | none => rw [hfind] at h; exact nomatch h
        · exact fun h ↦ absurd (h htail).1 Bool.false_ne_true
    · simp only [if_neg hblank]
      rw [renderArg_printed htail hrender hblank, Except.ok.injEq, outcome_eq_some_iff hblank]
      exact ⟨fun h _ ↦ h, fun h ↦ h htail⟩

variable {args : List (Argument data)}

theorem renderArgs_error_iff (hprints : PrintsReferences host context find args) :
    (∃ missing, renderArgs host context (args.map Argument.text) = .error missing) ↔
      ∃ arg ∈ args, arg.StopsStep host context find := by
  have hone : ∀ arg ∈ args, PrintsReferences host context find [arg] := by
    intro arg harg other hother
    rw [List.mem_singleton.mp hother]
    exact hprints arg harg
  have hargs : (∃ missing, renderArgs host context (args.map Argument.text) = .error missing) ↔
      ∃ missing, (args.map Argument.text).mapM (renderArg host context) = .error missing := by
    rw [renderArgs]
    match (args.map Argument.text).mapM (renderArg host context) with
    | .ok rendered => exact ⟨fun ⟨_, h⟩ ↦ (nomatch h), fun ⟨_, h⟩ ↦ (nomatch h)⟩
    | .error missing => exact ⟨fun _ ↦ ⟨missing, rfl⟩, fun _ ↦ ⟨missing, rfl⟩⟩
  rw [hargs, exists_mapM_error_iff]
  constructor
  · intro ⟨text, htext, herror⟩
    have ⟨arg, harg, heq⟩ := List.mem_map.mp htext
    rw [← heq] at herror
    exact ⟨arg, harg, (renderArg_error_iff hunicode (hone arg harg)).mp herror⟩
  · intro ⟨arg, harg, hstops⟩
    exact ⟨arg.text, List.mem_map_of_mem harg,
      (renderArg_error_iff hunicode (hone arg harg)).mpr hstops⟩

theorem mapM_renderArg_iff (hprints : PrintsReferences host context find args) :
    (args.map Argument.text).mapM (renderArg host context) =
        .ok (args.map fun arg ↦ arg.outcome host context) ↔
      ∀ arg ∈ args, arg.PrintsIntended host context find := by
  rw [mapM_map_eq_ok_iff]
  apply forall₂_congr
  intro arg harg
  apply renderArg_outcome_iff hunicode
  intro other hother
  rw [List.mem_singleton.mp hother]
  exact hprints arg harg

/-- A missing reference raises and the other arguments are rendered as intended, exactly if one
argument with a missing reference is blank and without a default, and where none is missing Jinja
prints what the keys lead to. -/
theorem rendersHonestly_iff (hprints : PrintsReferences host context find args) :
    RendersHonestly host context args ↔
      (LacksReference context args → ∃ arg ∈ args, arg.StopsStep host context find) ∧
        (¬ LacksReference context args → ∀ arg ∈ args, arg.PrintsIntended host context find) := by
  rw [← renderArgs_error_iff hunicode hprints, ← mapM_renderArg_iff hunicode hprints]
  exact ⟨fun h ↦ ⟨h.raises, h.renders⟩, fun h ↦ ⟨h.1, h.2⟩⟩

end Honest

/-- A machine on which templates print as listed. -/
def printingHost (printed : List (String × String)) : Runtime :=
  { Runtime.plain with
    unicode := WordData.ascii.toUnicode
    jinja :=
      { renderLenient := fun text _ ↦ .ok ((printed.lookup text).getD text)
        renderStrict := fun text _ ↦ .ok ((printed.lookup text).getD text) } }

/-- `--vpc-id={{steps.net.vpc_id}}`. -/
def vpcArgument : Argument WordData.ascii where
  head := "--vpc-id="
  tail := [({ path := ["net", "vpc_id"], blanks := (0, 0), ne_nil := by decide,
              segments := by decide }, "")]
  plain := by simp [literalsPlain]; decide

/-- `{{ steps.net.zone | default('') }}`. -/
def zoneArgument : Argument WordData.ascii where
  head := ""
  tail := [({ path := ["net", "zone"], fallback := some ⟨"''", ""⟩, ne_nil := by decide,
              segments := by decide }, "")]
  plain := by simp [literalsPlain]; decide

example : vpcArgument.text = "--vpc-id=\x7b\x7bsteps.net.vpc_id\x7d\x7d" := by decide

/-- The outputs of a step which made a network. -/
def netContext : Context where
  data := [(.str "steps", .dict [(.str "net", .dict [(.str "vpc_id", .str "vpc-1")])])]

/-- The identifier is passed on, and the zone is dropped. -/
theorem rendersHonestly_vpc :
    RendersHonestly
      (printingHost [(vpcArgument.text, "--vpc-id=vpc-1"), (zoneArgument.text, "")]) netContext
      [vpcArgument, zoneArgument] := by
  have hprints : PrintsReferences
      (printingHost [(vpcArgument.text, "--vpc-id=vpc-1"), (zoneArgument.text, "")]) netContext
      (fun path ↦ if path = ["net", "vpc_id"] then some "vpc-1" else none)
      [vpcArgument, zoneArgument] := by
    intro arg harg _ result hresult
    match List.mem_pair.mp harg with
    | .inl heq =>
      rw [heq] at hresult ⊢
      exact (Except.ok.inj hresult).symm.trans (by decide)
    | .inr heq =>
      rw [heq] at hresult ⊢
      exact (Except.ok.inj hresult).symm.trans (by decide)
  have hcomplete : ¬ LacksReference netContext [vpcArgument, zoneArgument] := by
    unfold LacksReference
    decide
  apply (rendersHonestly_iff rfl hprints).mpr
  constructor
  · exact fun hlacks ↦ absurd hlacks hcomplete
  · intro _ arg harg _
    match List.mem_pair.mp harg with
    | .inl heq =>
      rw [heq]
      exact (if_neg (by decide)).mpr (by decide)
    | .inr heq =>
      rw [heq]
      exact (if_pos (by decide)).mpr (by decide)

/-- The argument which names a network by an output that was never produced. -/
theorem partial_reference_passes :
    PrintsReferences (printingHost [(vpcArgument.text, "--vpc-id=")]) { data := [] } (fun _ ↦ none)
        [vpcArgument] ∧
      ¬ RendersHonestly (printingHost [(vpcArgument.text, "--vpc-id=")]) { data := [] }
          [vpcArgument] ∧
      renderArgs (printingHost [(vpcArgument.text, "--vpc-id=")]) { data := [] }
          [vpcArgument.text] = .ok ["--vpc-id="] := by
  have hprints : PrintsReferences (printingHost [(vpcArgument.text, "--vpc-id=")]) { data := [] }
      (fun _ ↦ none) [vpcArgument] := by
    intro arg harg _ result hresult
    rw [List.mem_singleton.mp harg] at hresult ⊢
    exact (Except.ok.inj hresult).symm.trans (by decide)
  have hargs : renderArgs (printingHost [(vpcArgument.text, "--vpc-id=")]) { data := [] }
      [vpcArgument.text] = .ok ["--vpc-id="] := by
    rfl
  refine ⟨hprints, ?_, hargs⟩
  intro h
  have hlacks : LacksReference { data := [] } [vpcArgument] := by
    unfold LacksReference
    decide
  have ⟨missing, hraises⟩ := h.raises hlacks
  exact nomatch hargs.symm.trans hraises

end IsvValidation.Orchestrator
