import IsvValidation.Host.Quoting
import IsvValidation.Orchestrator.StepExecutor

/-!
# Command lines

A step is meant to launch the tokens of its command and its rendered arguments, with the current
interpreter in place of `python`, `python3`, `uv run python` or `uv run python3`, and with at most
its script moved to an absolute path. After `uv run python` the executor keeps one token only, and
it tells the prefixes apart by the text of the command rather than by its tokens. It finds the
script as the first word which neither is nor follows one of the options it knows.
-/

namespace IsvValidation.Orchestrator

open Config Host Library

/-! ## The intended words -/

def isInterpreter (token : String) : Bool := token == "python" || token == "python3"

/-- The tokens after a recognised prefix. -/
def afterInterpreter (tokens : List String) : Option (List String) :=
  match if ["uv", "run"].isPrefixOf tokens then tokens.drop 2 else tokens with
  | first :: rest => if isInterpreter first then some rest else none
  | [] => none

/-- The words of the command with its interpreter replaced, and nothing else done to them. -/
def intendedWords (executable : String) (tokens : List String) : List String :=
  match afterInterpreter tokens with
  | some rest => executable :: rest
  | none => tokens

/-! ## The script of an interpreter

How Python reads its own command line, `python [option] ... [-c cmd | -m mod | file | -] [arg] ...`.
-/

/-- What a word among the options of the interpreter is. -/
inductive OptionWord where
  | flag
  | value
  | mode
  | last
  | operand
  deriving DecidableEq

/-- A cluster of one-letter options. `-c` and `-m` end the options, `-W` and `-X` take the rest of
their word or the next word. -/
def readLetters : List Char → OptionWord
  | [] => .flag
  | letter :: rest =>
    if letter = 'c' ∨ letter = 'm' then .mode
    else if letter = 'W' ∨ letter = 'X' then if rest.isEmpty then .value else .flag
    else readLetters rest

def readOption (word : String) : OptionWord :=
  match word.toList with
  | ['-'] => .mode
  | ['-', '-'] => .last
  | '-' :: '-' :: _ => if word = "--check-hash-based-pycs" then .value else .flag
  | '-' :: letters => readLetters letters
  | _ => .operand

/-- The position of the file operand among the words after the interpreter. -/
def scriptOperand (index : ℕ) : List String → Option ℕ
  | [] => none
  | word :: rest =>
    match readOption word with
    | .operand => some index
    | .mode => none
    | .last => if rest.isEmpty then none else some (index + 1)
    | .flag => scriptOperand (index + 1) rest
    | .value =>
      match rest with
      | [] => none
      | _ :: rest => scriptOperand (index + 2) rest

/-! ## What is launched -/

/-- Resolving a path makes it absolute, and what exists still exists under its resolved path. -/
structure ResolvesPaths (files : ScriptFiles) : Prop where
  absolute : ∀ root path resolved, files.resolve root path = .ok resolved →
    Text.isAbsolute resolved = true
  sameFile : ∀ root path resolved, files.exists? root path = .ok true →
    files.resolve root path = .ok resolved → files.exists? "/" resolved = .ok true

/-- The script of the interpreter, and nothing else, is replaced by the absolute path of an existing
file, to which it leads from some root. -/
structure ScriptMoved (files : ScriptFiles) (words argv : List String) (index : ℕ) : Prop where
  interpreter : Text.startsWith (Text.pathName (words.headD "")) "python" = true
  operand : scriptOperand 1 words.tail = some index
  moved : ∃ root resolved, files.exists? root (words.getD index "") = .ok true ∧
    files.resolve root (words.getD index "") = .ok resolved ∧
    Text.isAbsolute resolved = true ∧ files.exists? "/" resolved = .ok true ∧
    argv = words.set index resolved

/-- The words are launched as they are, or with the script moved. -/
def LaunchedAs (files : ScriptFiles) (words argv : List String) : Prop :=
  argv = words ∨ ∃ index, ScriptMoved files words argv index

/-! ## When it is what was intended -/

/-- The executor's reading of the command keeps its tokens. -/
def KeepsTokens (executable command : String) (tokens : List String) : Prop :=
  if Text.startsWith command "uv run python" then
    tokens.length ≤ 4 ∧ (tokens[2]?).any isInterpreter = true
  else if Text.startsWith command "python3 " || Text.startsWith command "python " then True
  else afterInterpreter tokens = none ∨
    isInterpreter executable = true ∧ tokens.head? = some executable

/-- The first word which the executor does not take for an option is relative, missing in the
working directory, and found under one of its parents or the current directory. -/
structure FoundElsewhere (files : ScriptFiles) (cwd : String) (words : List String) (index : ℕ) :
    Prop where
  interpreter : Text.startsWith (Text.pathName (words.headD "")) "python" = true
  scanned : scriptIndex 1 words.tail = some index
  relative : Text.isAbsolute (words.getD index "") = false
  missing : files.exists? cwd (words.getD index "") = .ok false
  found : ∃ parents current root, files.parents cwd = .ok parents ∧
    files.currentDir = .ok current ∧
    findRoot files (words.getD index "") (parents ++ [current]) = .ok (some root)

/-- A word which is found elsewhere is the script. -/
def ScriptRecognised (files : ScriptFiles) (cwd : String) (words : List String) : Prop :=
  ∀ index, FoundElsewhere files cwd words index → scriptOperand 1 words.tail = some index

/-! ## The words of a command -/

theorem startsWith_iff {text start : String} :
    Text.startsWith text start = true ↔ ∃ rest, text.toList = start.toList ++ rest := by
  rw [Text.startsWith, List.isPrefixOf_iff_prefix]
  exact ⟨fun ⟨rest, h⟩ ↦ ⟨rest, h.symm⟩, fun ⟨rest, h⟩ ↦ ⟨rest, h.symm⟩⟩

/-- A command which starts with a plain word and a blank has this word as its first token. -/
theorem split_of_startsWith (word : String) (rest : List Char) {command : String}
    {tokens : List String} (hne : word.toList ≠ [])
    (hword : ∀ c ∈ word.toList, Shlex.isLetter c = true) (h : command.toList = word.toList ++ ' ' :: rest)
    (hsplit : Shlex.split command = .ok tokens) :
    ∃ more, Shlex.split (.ofList rest) = .ok more ∧ tokens = word :: more := by
  have hcommand : command = .ofList (word.toList ++ ' ' :: rest) := by rw [← h, String.ofList_toList]
  rw [hcommand, Shlex.split_letters hne hword, String.ofList_toList] at hsplit
  cases hrest : Shlex.split (.ofList rest) with
  | error raised => rw [hrest] at hsplit; cases hsplit
  | ok more =>
    rw [hrest] at hsplit
    cases hsplit
    exact ⟨more, rfl, rfl⟩

theorem split_uvRun {command : String} {tokens : List String}
    (h : Text.startsWith command "uv run python" = true)
    (hsplit : Shlex.split command = .ok tokens) : ∃ more, tokens = "uv" :: "run" :: more := by
  have ⟨rest, hrest⟩ := startsWith_iff.mp h
  have ⟨more, hmore, htokens⟩ := split_of_startsWith "uv" ("run python".toList ++ rest)
    (by decide) (by decide) hrest hsplit
  have ⟨last, _, hlast⟩ := split_of_startsWith "run" ("python".toList ++ rest)
    (by decide) (by decide) (String.toList_ofList ..) hmore
  exact ⟨last, by rw [htokens, hlast]⟩

theorem split_python {command : String} {tokens : List String}
    (h : (Text.startsWith command "python3 " || Text.startsWith command "python ") = true)
    (hsplit : Shlex.split command = .ok tokens) :
    ∃ interpreter more, isInterpreter interpreter = true ∧ tokens = interpreter :: more := by
  match Bool.or_eq_true .. ▸ h with
  | Or.inl hthree =>
    have ⟨rest, hrest⟩ := startsWith_iff.mp hthree
    have ⟨more, _, htokens⟩ :=
      split_of_startsWith "python3" rest (by decide) (by decide) hrest hsplit
    exact ⟨_, more, rfl, htokens⟩
  | Or.inr hplain =>
    have ⟨rest, hrest⟩ := startsWith_iff.mp hplain
    have ⟨more, _, htokens⟩ :=
      split_of_startsWith "python" rest (by decide) (by decide) hrest hsplit
    exact ⟨_, more, rfl, htokens⟩

theorem afterInterpreter_uvRun (more : List String) :
    afterInterpreter ("uv" :: "run" :: more) =
      match more with
      | first :: rest => if isInterpreter first then some rest else none
      | [] => none := rfl

theorem afterInterpreter_cons {first : String} (rest : List String)
    (h : isInterpreter first = true) : afterInterpreter (first :: rest) = some rest := by
  have huv : ["uv", "run"].isPrefixOf (first :: rest) = false := by
    have hne : ("uv" == first) = false := by
      by_contra heq
      rw [Bool.not_eq_false, beq_iff_eq] at heq
      rw [← heq] at h
      exact absurd h (by decide)
    rw [List.isPrefixOf_cons_cons, hne, Bool.false_and]
  rw [afterInterpreter, huv]
  simp [h]

/-- Tokens which a recognised prefix leads to other words start with an interpreter or with `uv`. -/
theorem afterInterpreter_some {tokens rest : List String} (h : afterInterpreter tokens = some rest) :
    (∃ first, isInterpreter first = true ∧ tokens = first :: rest) ∨
      ∃ first, isInterpreter first = true ∧ tokens = "uv" :: "run" :: first :: rest := by
  unfold afterInterpreter at h
  by_cases hpre : ["uv", "run"].isPrefixOf tokens = true
  · have ⟨more, hmore⟩ := List.isPrefixOf_iff_prefix.mp hpre
    rw [if_pos hpre, ← hmore] at h
    match more, h with
    | first :: _, h =>
      by_cases hfirst : isInterpreter first = true
      · simp only [List.cons_append, List.nil_append, List.drop_succ_cons, List.drop_zero,
          if_pos hfirst, Option.some.injEq] at h
        exact Or.inr ⟨first, hfirst, by rw [← hmore, h]; rfl⟩
      · simp [hfirst] at h
  · rw [if_neg hpre] at h
    match tokens, h with
    | first :: _, h =>
      by_cases hfirst : isInterpreter first = true
      · simp only [if_pos hfirst, Option.some.injEq] at h
        exact Or.inl ⟨first, hfirst, by rw [h]⟩
      · simp [hfirst] at h

/-- The words differ in number or in the program. -/
def Apart (words other : List String) : Prop :=
  words.length ≠ other.length ∨ words.head? ≠ other.head?

/-- The executor has the intended words where it keeps the tokens. Otherwise it launches other
words, whatever arguments follow. -/
theorem commandWords_intended {host : Runtime} {command : String} {tokens words : List String}
    (hsplit : Shlex.split command = .ok tokens) (hwords : commandWords host command = .ok words) :
    (KeepsTokens host.executable command tokens →
      words = intendedWords host.executable tokens) ∧
    (¬ KeepsTokens host.executable command tokens →
      ∀ args, Apart (words ++ args) (intendedWords host.executable tokens ++ args)) := by
  unfold commandWords at hwords
  rw [hsplit] at hwords
  unfold KeepsTokens
  by_cases huv : Text.startsWith command "uv run python" = true
  · have ⟨more, hmore⟩ := split_uvRun huv hsplit
    rw [if_pos huv]
    simp only [bind, Except.bind, if_pos huv, hmore] at hwords
    rw [hmore, intendedWords, afterInterpreter_uvRun]
    -- the third token decides about the prefix, the fourth is the only one which is kept
    match more, hwords with
    | [], hwords =>
      cases hwords
      exact ⟨fun h ↦ absurd h.2 (by simp), fun _ args ↦ Or.inl (by simp)⟩
    | [interpreter], hwords =>
      cases hwords
      by_cases h : isInterpreter interpreter = true
      · simp [h]
      · simp only [if_neg h]
        exact ⟨fun hkeep ↦ absurd hkeep.2 (by simpa using h), fun _ args ↦ Or.inl (by simp)⟩
    | [interpreter, script], hwords =>
      cases hwords
      by_cases h : isInterpreter interpreter = true
      · simp [h]
      · simp only [if_neg h]
        exact ⟨fun hkeep ↦ absurd hkeep.2 (by simpa using h), fun _ args ↦ Or.inl (by simp)⟩
    | interpreter :: script :: extra :: others, hwords =>
      cases hwords
      refine ⟨fun hkeep ↦ absurd hkeep.1 (by simp), fun _ args ↦ Or.inl ?_⟩
      by_cases h : isInterpreter interpreter = true
      · simp only [if_pos h, List.length_append, List.length_cons, List.length_nil]
        omega
      · simp only [if_neg h, List.length_append, List.length_cons, List.length_nil]
        omega
  · rw [if_neg huv]
    simp only [bind, Except.bind, if_neg huv] at hwords
    by_cases hpython :
        (Text.startsWith command "python3 " || Text.startsWith command "python ") = true
    · have ⟨interpreter, more, hinterpreter, hmore⟩ := split_python hpython hsplit
      rw [if_pos hpython]
      rw [if_pos hpython] at hwords
      cases hwords
      rw [hmore, intendedWords, afterInterpreter_cons more hinterpreter]
      exact ⟨fun _ ↦ rfl, fun h ↦ absurd trivial h⟩
    · rw [if_neg hpython]
      rw [if_neg hpython] at hwords
      cases hwords
      unfold intendedWords
      cases hafter : afterInterpreter tokens with
      | none => simp
      | some rest =>
        match afterInterpreter_some hafter with
        | Or.inl ⟨first, hfirst, htokens⟩ =>
          rw [htokens]
          by_cases hsame : first = host.executable
          · exact ⟨fun _ ↦ by rw [hsame], fun h ↦ absurd (Or.inr ⟨hsame ▸ hfirst, by simp [hsame]⟩) h⟩
          · refine ⟨fun h ↦ ?_, fun _ args ↦ Or.inr (by simp [hsame])⟩
            match h with
            | Or.inr ⟨_, hhead⟩ => exact absurd (by simpa using hhead) hsame
        | Or.inr ⟨first, hfirst, htokens⟩ =>
          rw [htokens]
          refine ⟨fun h ↦ ?_, fun _ args ↦ Or.inl ?_⟩
          swap
          · simp only [List.length_append, List.length_cons]
            omega
          match h with
          | Or.inr ⟨hexecutable, hhead⟩ =>
            have heq : "uv" = host.executable := by simpa using hhead
            rw [← heq] at hexecutable
            exact absurd hexecutable (by decide)

/-! ## The script -/

theorem scriptIndex_range {index found : ℕ} {words : List String}
    (h : scriptIndex index words = some found) : index ≤ found ∧ found < index + words.length := by
  fun_induction scriptIndex index words with
  | case1 => cases h
  | case2 => cases h
  | case3 => cases h; simp
  | case4 => cases h
  | case5 index option value rest hdash hmode hvalue ih =>
    have hrange := ih h
    simp only [List.length_cons]
    omega
  | case6 index option value rest hdash hmode hvalue ih =>
    have hrange := ih h
    simp only [List.length_cons] at hrange ⊢
    omega
  | case7 => cases h; simp

theorem scriptOperand_range {index found : ℕ} {words : List String}
    (h : scriptOperand index words = some found) : index ≤ found := by
  fun_induction scriptOperand index words with
  | case1 => cases h
  | case2 => cases h; exact le_rfl
  | case3 => cases h
  | case4 => cases h
  | case5 => cases h; omega
  | case6 index word rest hread ih =>
    have hrange := ih h
    omega
  | case7 => cases h
  | case8 index word hread other rest ih =>
    have hrange := ih h
    omega

theorem findRoot_exists {files : ScriptFiles} {path root : String} {roots : List String}
    (h : findRoot files path roots = .ok (some root)) : files.exists? root path = .ok true := by
  induction roots with
  | nil => cases h
  | cons first rest ih =>
    unfold findRoot at h
    cases hfirst : files.exists? first path with
    | error raised => rw [hfirst] at h; cases h
    | ok found =>
      rw [hfirst] at h
      cases found with
      | true =>
        cases h
        exact hfirst
      | false => exact ih h

/-- The lookup for one script: it leaves the words alone, or it finds the script elsewhere. -/
theorem lookup_ok {files : ScriptFiles} {words argv : List String} {cwd script : String} {index : ℕ}
    (h : (if Text.isAbsolute script then return words
      else do
        if ← files.exists? cwd script then return words
        let parents ← files.parents cwd
        let current ← files.currentDir
        match ← findRoot files script (parents ++ [current]) with
        | none => return words
        | some root =>
          let resolved ← files.resolve root script
          return words.set index resolved : Except PyError (List String)) = .ok argv) :
    (argv = words ∧ ¬ (Text.isAbsolute script = false ∧ files.exists? cwd script = .ok false ∧
      ∃ parents current root, files.parents cwd = .ok parents ∧ files.currentDir = .ok current ∧
        findRoot files script (parents ++ [current]) = .ok (some root))) ∨
    (Text.isAbsolute script = false ∧ files.exists? cwd script = .ok false ∧
      ∃ parents current root resolved, files.parents cwd = .ok parents ∧
        files.currentDir = .ok current ∧
        findRoot files script (parents ++ [current]) = .ok (some root) ∧
        files.resolve root script = .ok resolved ∧ argv = words.set index resolved) := by
  by_cases habsolute : Text.isAbsolute script = true
  · rw [if_pos habsolute] at h
    cases h
    exact Or.inl ⟨rfl, fun hfound ↦ by rw [habsolute] at hfound; cases hfound.1⟩
  · rw [if_neg habsolute] at h
    rw [Bool.not_eq_true] at habsolute
    have ⟨here, hhere, h⟩ := bind_eq_ok.mp h
    cases here with
    | true =>
      cases h
      exact Or.inl ⟨rfl, fun hfound ↦ by rw [hhere] at hfound; cases hfound.2.1⟩
    | false =>
      have ⟨parents, hparents, h⟩ := bind_eq_ok.mp h
      have ⟨current, hcurrent, h⟩ := bind_eq_ok.mp h
      have ⟨found, hroot, h⟩ := bind_eq_ok.mp h
      match found, h with
      | none, h =>
        cases h
        refine Or.inl ⟨rfl, fun ⟨_, _, parents', current', root, hp, hc, hr⟩ ↦ ?_⟩
        rw [hparents, Except.ok.injEq] at hp
        rw [hcurrent, Except.ok.injEq] at hc
        rw [← hp, ← hc, hroot] at hr
        cases hr
      | some root, h =>
        have ⟨resolved, hresolve, h⟩ := bind_eq_ok.mp h
        cases h
        exact Or.inr ⟨habsolute, hhere, parents, current, root, resolved, hparents, hcurrent, hroot,
          hresolve, rfl⟩

/-- The lookup leaves the words alone, or replaces a word which it finds elsewhere. -/
theorem resolvePythonScriptPath_ok {files : ScriptFiles} {words argv : List String} {cwd : String}
    (h : resolvePythonScriptPath files words cwd = .ok argv) :
    (argv = words ∧ ∀ index, ¬ FoundElsewhere files cwd words index) ∨
      ∃ index root resolved, FoundElsewhere files cwd words index ∧
        files.exists? root (words.getD index "") = .ok true ∧
        files.resolve root (words.getD index "") = .ok resolved ∧
        argv = words.set index resolved := by
  match words, h with
  | [], h =>
    cases h
    exact Or.inl ⟨rfl, fun index hfound ↦ by cases hfound.scanned⟩
  | [_], h =>
    cases h
    exact Or.inl ⟨rfl, fun index hfound ↦ by cases hfound.scanned⟩
  | interpreter :: second :: rest, h =>
    unfold resolvePythonScriptPath at h
    simp only at h
    by_cases hpython : Text.startsWith (Text.pathName interpreter) "python" = true
    · rw [if_neg (by rw [hpython]; decide)] at h
      cases hscan : scriptIndex 1 (second :: rest) with
      | none =>
        rw [hscan] at h
        cases h
        refine Or.inl ⟨rfl, fun index hfound ↦ ?_⟩
        cases hscan.symm.trans hfound.scanned
      | some index =>
        rw [hscan] at h
        match lookup_ok h with
        | Or.inl ⟨hargv, hnot⟩ =>
          refine Or.inl ⟨hargv, fun other hfound ↦ hnot ?_⟩
          have hsame := hfound.scanned.symm.trans hscan
          rw [Option.some.injEq] at hsame
          subst hsame
          exact ⟨hfound.relative, hfound.missing, hfound.found⟩
        | Or.inr ⟨hrelative, hmissing, parents, current, root, resolved, hparents, hcurrent, hroot,
            hresolve, hargv⟩ =>
          exact Or.inr ⟨index, root, resolved,
            ⟨hpython, hscan, hrelative, hmissing, parents, current, root, hparents, hcurrent, hroot⟩,
            findRoot_exists hroot, hresolve, hargv⟩
    · rw [if_pos (by simpa using hpython)] at h
      cases h
      exact Or.inl ⟨rfl, fun index hfound ↦ absurd hfound.interpreter hpython⟩

/-! ## The launched command -/

/-- A launch has the words of the command and the rendered arguments behind it. -/
theorem executeStep_launch {host : Runtime} {tick : ℕ} {context : Context} {step : StepConfig}
    {launch : Launch} (h : (executeStep host tick context step).launch = some launch) :
    ∃ tokens words args, Shlex.split step.command = .ok tokens ∧
      commandWords host step.command = .ok words ∧ renderArgs host context step.args = .ok args ∧
      resolvePythonScriptPath (host.scripts tick) (words ++ args) launch.cwd = .ok launch.argv ∧
      launch.cwd = (step.workingDir.filter (· ≠ "")).getD host.workingDir := by
  unfold executeStep at h
  match hargs : renderArgs host context step.args with
  | .error missing => rw [hargs] at h; cases h
  | .ok args =>
    match hwords : commandWords host step.command with
    | .error raised => rw [hargs, hwords] at h; cases h
    | .ok words =>
      have ⟨tokens, htokens, _⟩ := bind_eq_ok.mp hwords
      simp only [hargs, hwords] at h
      match hargv : resolvePythonScriptPath (host.scripts tick) (words ++ args)
          ((step.workingDir.filter (· ≠ "")).getD host.workingDir) with
      | .error raised => rw [hargv] at h; cases h
      | .ok argv =>
        rw [hargv] at h
        unfold launchStep at h
        simp only at h
        split at h
        · cases h
        · cases h
          exact ⟨tokens, words, args, htokens, rfl, rfl, hargv, rfl⟩

theorem Apart.set {words other argv : List String} (h : Apart words other) {index : ℕ}
    {resolved : String} (hindex : 1 ≤ index) (hargv : argv = words.set index resolved) :
    Apart argv other := by
  rw [hargv]
  match h with
  | Or.inl hlength => exact Or.inl (by rwa [List.length_set])
  | Or.inr hhead =>
    refine Or.inr ?_
    match index, hindex with
    | index + 1, _ =>
      match words, hhead with
      | [], hhead => exact hhead
      | _ :: _, hhead => exact hhead

theorem Apart.symm {words other : List String} (h : Apart words other) : Apart other words :=
  h.imp Ne.symm Ne.symm

/-- Words which differ in number or in the program are not launched as each other. -/
theorem Apart.not_launchedAs {files : ScriptFiles} {words argv : List String} (h : Apart argv words) :
    ¬ LaunchedAs files words argv := by
  intro hlaunched
  have hsame : Apart argv argv := by
    match hlaunched with
    | Or.inl heq =>
      rw [← heq] at h
      exact h
    | Or.inr ⟨index, hmoved⟩ =>
      have ⟨_, _, _, _, _, _, hargv⟩ := hmoved.moved
      exact (h.symm.set (scriptOperand_range hmoved.operand) hargv)
  match hsame with
  | Or.inl hlength => exact hlength rfl
  | Or.inr hhead => exact hhead rfl

/-- For words which are the intended ones, all that can go wrong is that another word than the
script is moved. -/
theorem launchedAs_iff {files : ScriptFiles} (hfiles : ResolvesPaths files) {words argv : List String}
    {cwd : String} (h : resolvePythonScriptPath files words cwd = .ok argv) :
    LaunchedAs files words argv ↔ ScriptRecognised files cwd words := by
  match resolvePythonScriptPath_ok h with
  | Or.inl ⟨hargv, hnot⟩ =>
    exact ⟨fun _ index hfound ↦ absurd hfound (hnot index), fun _ ↦ Or.inl hargv⟩
  | Or.inr ⟨index, root, resolved, hfound, hexists, hresolve, hargv⟩ =>
    have habsolute := hfiles.absolute _ _ _ hresolve
    constructor
    · intro hlaunched other hother
      have hsame := hother.scanned.symm.trans hfound.scanned
      rw [Option.some.injEq] at hsame
      subst hsame
      have hrange := scriptIndex_range hother.scanned
      have hlt : other < words.length := by
        have htail := List.length_tail (l := words)
        omega
      have hchanged : argv.getD other "" ≠ words.getD other "" := by
        intro heq
        have hat : argv.getD other "" = resolved := by
          rw [hargv]
          simp [hlt]
        have hrelative := hother.relative
        rw [← heq, hat, habsolute] at hrelative
        cases hrelative
      match hlaunched with
      | Or.inl heq => exact absurd (by rw [heq]) hchanged
      | Or.inr ⟨moved, hmoved⟩ =>
        have ⟨_, _, _, _, _, _, hset⟩ := hmoved.moved
        by_cases hindex : moved = other
        · rw [← hindex]
          exact hmoved.operand
        · have hkept : argv.getD other "" = words.getD other "" := by
            rw [hset]
            simp [hindex]
          exact absurd hkept hchanged
    · intro hrecognised
      exact Or.inr ⟨index, hfound.interpreter, hrecognised index hfound, root, resolved, hexists,
        hresolve, habsolute, hfiles.sameFile _ _ _ hexists hresolve, hargv⟩

/-- What a step launches is its tokens and its rendered arguments, with the interpreter replaced and
at most the script moved, exactly if the executor's reading of the command keeps the tokens and any
word which it finds elsewhere is the script. -/
theorem executeStep_launchedAs_iff {host : Runtime} {tick : ℕ} {context : Context}
    {step : StepConfig} {launch : Launch} {tokens args : List String}
    (hfiles : ResolvesPaths (host.scripts tick))
    (hlaunch : (executeStep host tick context step).launch = some launch)
    (hsplit : Shlex.split step.command = .ok tokens)
    (hargs : renderArgs host context step.args = .ok args) :
    LaunchedAs (host.scripts tick) (intendedWords host.executable tokens ++ args) launch.argv ↔
      KeepsTokens host.executable step.command tokens ∧
        ScriptRecognised (host.scripts tick) launch.cwd
          (intendedWords host.executable tokens ++ args) := by
  have ⟨tokens', words, args', htokens, hwords, hrendered, hargv, _⟩ := executeStep_launch hlaunch
  rw [hsplit, Except.ok.injEq] at htokens
  rw [hargs, Except.ok.injEq] at hrendered
  subst htokens hrendered
  have ⟨hsame, hapart⟩ := commandWords_intended hsplit hwords
  by_cases hkeeps : KeepsTokens host.executable step.command tokens
  · rw [hsame hkeeps] at hargv
    rw [launchedAs_iff hfiles hargv]
    exact ⟨fun h ↦ ⟨hkeeps, h⟩, fun h ↦ h.2⟩
  · have hlost : Apart launch.argv (intendedWords host.executable tokens ++ args) := by
      match resolvePythonScriptPath_ok hargv with
      | Or.inl ⟨heq, _⟩ =>
        rw [heq]
        exact hapart hkeeps args
      | Or.inr ⟨index, root, resolved, hfound, _, _, hset⟩ =>
        exact (hapart hkeeps args).set (scriptIndex_range hfound.scanned).1 hset
    exact ⟨fun h ↦ absurd h hlost.not_launchedAs, fun h ↦ absurd h.1 hkeeps⟩

/-- A machine with one script, `/repo/run.py`. Steps run in `/repo/steps`. -/
def repoHost : Runtime :=
  { Runtime.plain with
    workingDir := "/repo/steps"
    scripts := fun _ ↦
      { parents := fun _ ↦ .ok ["/repo", "/"]
        currentDir := .ok "/home"
        exists? := fun root path ↦
          .ok (decide (path = "/repo/run.py" ∨ root = "/repo" ∧ path = "run.py"))
        resolve := fun _ path ↦ .ok (if Text.isAbsolute path then path else "/repo/" ++ path) } }

theorem repoHost_resolvesPaths (tick : ℕ) : ResolvesPaths (repoHost.scripts tick) where
  absolute := by
    intro root path resolved h
    cases h
    by_cases habsolute : Text.isAbsolute path = true
    · simp [habsolute]
    · rw [if_neg habsolute]
      simp [Text.isAbsolute, Text.startsWith]
  sameFile := by
    intro root path resolved hexists h
    cases h
    have hpath : path = "/repo/run.py" ∨ root = "/repo" ∧ path = "run.py" := by
      simpa [repoHost] using hexists
    match hpath with
    | Or.inl heq =>
      rw [heq]
      rfl
    | Or.inr ⟨_, heq⟩ =>
      rw [heq]
      rfl

/-- The script of a plain command is moved, and its argument and those of the step follow. -/
theorem executeStep_launchedAs_moved :
    LaunchedAs (repoHost.scripts 0) ["/usr/bin/python3", "run.py", "--fast", "a b"]
      ["/usr/bin/python3", "/repo/run.py", "--fast", "a b"] :=
  (@executeStep_launchedAs_iff repoHost 0 { data := [] }
    { name := "report", command := "python3 run.py --fast", args := ["a b"] }
    ⟨["/usr/bin/python3", "/repo/run.py", "--fast", "a b"], "/repo/steps", [], some 300⟩
    ["python3", "run.py", "--fast"] ["a b"] (repoHost_resolvesPaths 0) (by decide +kernel) rfl
    (by decide +kernel)).mpr
    ⟨by unfold KeepsTokens; decide, fun _ hfound ↦ hfound.scanned ▸ rfl⟩

/-- Behind `uv run python` a script loses its arguments. -/
theorem uvRun_drops_tokens :
    ∃ launch tokens, (executeStep repoHost 0 { data := [] }
        { name := "report", command := "uv run python run.py --fast" }).launch = some launch ∧
      Shlex.split "uv run python run.py --fast" = .ok tokens ∧
      launch.argv = ["/usr/bin/python3", "/repo/run.py"] ∧
      ¬ LaunchedAs (repoHost.scripts 0) (intendedWords repoHost.executable tokens) launch.argv := by
  refine ⟨⟨["/usr/bin/python3", "/repo/run.py"], "/repo/steps", [], some 300⟩,
    ["uv", "run", "python", "run.py", "--fast"], rfl, rfl, rfl, Apart.not_launchedAs (Or.inl ?_)⟩
  decide

end IsvValidation.Orchestrator
