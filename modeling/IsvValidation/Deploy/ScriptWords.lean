import IsvValidation.Deploy.SentScript
import IsvValidation.Host.ShellQuoting
import IsvValidation.Library.ShellValues

/-!
# The words of the script

The lines of the script which hold no values are commands of their own, between quotes they leave the
reader there, and the parts of the test run's line are read as the words they are meant to be. A config
path is one of its words exactly when it is plain outside of quotes.
-/

namespace IsvValidation.Deploy

open Host Library Library.Shell Library.Shell.Reader Orchestrator
open Host.ShellQuoting

/-- What is read when the remote directory comes. -/
def directoryReader : Reader ScriptLine where
  mode := .double
  line := some .cd
  words := [(first ScriptLine.cd "cd").map (Glyph.piece false)]

/-- What is read when the message comes. -/
def messageReader : Reader ScriptLine where
  mode := .double
  line := some .announce
  words := [(first ScriptLine.announce "echo").map (Glyph.piece false)]

namespace Deployment

variable (deployment : Deployment)

/-- The part of the message in front of the arguments. -/
def messageFront : ScriptText :=
  own "Command: isvctl test run " ++ deployment.configArgs ++
    own (" --phase " ++ deployment.phase.value ++ " ")

/-- What is read when the arguments of the message come. -/
def announcementReader : Reader ScriptLine :=
  { messageReader with token := deployment.messageFront.map (Glyph.piece true) }

end Deployment

variable {dialect : Dialect} {deployment : Deployment}

/-! ## The script's own lines -/

/-- A line which ends its last command, and behind which the reader is between the same quotes as
before it. -/
def isSettled (line : List Char) : Bool :=
  isLine line && [Mode.double, .single].all fun mode ↦ line.foldl nextMode mode == mode

/-- What holds of the characters of a literal holds of the literal. -/
theorem toList_literal {p : List Char → Prop} {chars : List Char} (h : p chars) :
    p (String.ofList chars).toList := by
  rw [String.toList_ofList]
  exact h

theorem isLine_opening : ∀ line ∈ Deployment.opening, isLine line.toList = true := by
  simp only [Deployment.opening, List.forall_mem_cons, List.not_mem_nil, false_implies,
    implies_true, and_true]
  and_intros
  all_goals exact toList_literal (p := fun chars ↦ isLine chars = true) (by decide +kernel)

theorem isLine_closing : ∀ line ∈ Deployment.closing, isLine line.toList = true := by
  simp only [Deployment.closing, List.forall_mem_cons, List.not_mem_nil, false_implies,
    implies_true, and_true]
  and_intros
  all_goals exact toList_literal (p := fun chars ↦ isLine chars = true) (by decide +kernel)

theorem isSettled_clear : ∀ line ∈ clearReplacedDirsScript, isSettled line.toList = true := by
  simp only [clearReplacedDirsScript, List.forall_mem_cons, List.not_mem_nil, false_implies,
    implies_true, and_true]
  and_intros
  · decide +kernel
  · exact toList_literal (p := fun chars ↦ isSettled chars = true) (by decide +kernel)
  · decide +kernel
  · exact toList_literal (p := fun chars ↦ isSettled chars = true) (by decide +kernel)
  · exact toList_literal (p := fun chars ↦ isSettled chars = true) (by decide +kernel)

theorem isSettled_preparation :
    ∀ line ∈ Deployment.preparation, isSettled line.toList = true := by
  simp only [Deployment.preparation, List.forall_mem_append, List.forall_mem_cons,
    List.not_mem_nil, false_implies, implies_true, and_true]
  refine ⟨⟨?_, isSettled_clear⟩, ?_⟩
  · exact toList_literal (p := fun chars ↦ isSettled chars = true) (by decide +kernel)
  refine ⟨?_, ?_, ?_⟩
  · exact toList_literal (p := fun chars ↦ isSettled chars = true) (by decide +kernel)
  · decide +kernel
  and_intros
  all_goals exact toList_literal (p := fun chars ↦ isSettled chars = true) (by decide +kernel)

theorem isSettled_options : ∀ line ∈ Deployment.options, isSettled line.toList = true := by
  simp only [Deployment.options, List.forall_mem_cons, List.not_mem_nil, false_implies,
    implies_true, and_true]
  and_intros
  all_goals exact toList_literal (p := fun chars ↦ isSettled chars = true) (by decide +kernel)

theorem own_append (front back : String) :
    (own (front ++ back) : ScriptText) = own front ++ own back := by
  rw [own, String.toList_append, List.map_append]
  rfl

theorem read_cd : (fresh []).read dialect (first ScriptLine.cd "cd" ++ own " \"") =
    directoryReader := rfl

theorem read_echo : (fresh []).read dialect (first ScriptLine.announce "echo" ++ own " \"") =
    messageReader := rfl

/-- What is read when the arguments of the test run come. -/
def runReader : Reader ScriptLine where
  line := some .testRun
  words := [(first ScriptLine.testRun "sudo").map (Glyph.piece false)]

theorem read_sudo : (fresh []).read dialect (first ScriptLine.testRun "sudo" ++ own " ") =
    runReader := rfl

/-- A command which has begun waits for its next word. -/
theorem eq_of_ready {r : Reader ScriptLine} (h : r.Ready) : ∃ line word rest commands,
    r = ⟨.blank, [], false, line, word :: rest, commands⟩ := by
  have ⟨word, rest, hwords⟩ := List.exists_cons_of_ne_nil h.words
  refine ⟨r.line, word, rest, r.commands, ?_⟩
  rw [← h.blank, ← h.token, ← h.target, ← hwords]

theorem appends_path : ∃ word, Appends dialect (own "PATH=\"$PATH\"" : ScriptText) [word] ∧
    Word.shown word = "PATH=".toList.map Shown.char ++ [.parameter "PATH".toList] := by
  refine ⟨(own "PATH=" : ScriptText).map (Glyph.piece false) ++
    [⟨.parameter "PATH".toList, true, false⟩], fun r h ↦ ?_, rfl⟩
  obtain ⟨line, word, rest, commands, rfl⟩ := eq_of_ready h
  rfl

/-- The sign of the redirection, and the pipe which ends the command. -/
theorem Ready.read_pipe {r : Reader ScriptLine} (h : r.Ready) :
    r.read dialect (own "2>&1 |") = fresh (r.commands ++ [⟨r.line, r.words⟩]) := by
  obtain ⟨line, word, rest, commands, rfl⟩ := eq_of_ready h
  rfl

/-! ## Texts which begin no line -/

/-- Values, and characters of the script's own which begin nothing. -/
def Quiet (text : ScriptText) : Prop := ∀ g ∈ text, isCalm g = true ∧ g.line? = none

theorem line?_own {text : String} : ∀ g ∈ (own text : ScriptText), g.line? = none := by
  intro g hg
  have ⟨c, _, heq⟩ := List.mem_map.mp hg
  exact heq ▸ rfl

theorem line?_ownLines {lines : List String} : ∀ g ∈ ownLines lines, g.line? = none := by
  intro g hg
  have ⟨line, _, hline⟩ := List.mem_flatMap.mp hg
  exact line?_own g hline

theorem quiet_nil : Quiet [] := fun _ hg ↦ absurd hg List.not_mem_nil

theorem quiet_value (text : List Char) : Quiet (value text) := by
  intro g hg
  have ⟨c, _, heq⟩ := List.mem_map.mp hg
  exact heq ▸ ⟨rfl, rfl⟩

theorem quiet_own {text : String}
    (h : ∀ c ∈ text.toList, isCalm (⟨c, .own⟩ : Glyph ScriptLine) = true) : Quiet (own text) := by
  intro g hg
  refine ⟨?_, line?_own g hg⟩
  have ⟨c, hc, heq⟩ := List.mem_map.mp hg
  exact heq ▸ h c hc

theorem quiet_harmless {text : String} (h : ∀ c ∈ text.toList, Shlex.isHarmless c = true) :
    Quiet (own text) := by
  apply quiet_own
  intro c hc
  have ⟨hactive, hdollar, _⟩ := isActive_harmless (h c hc)
  simp only [isActive, List.contains_cons, List.contains_nil, Bool.or_false, Bool.or_eq_false_iff,
    beq_eq_false_iff_ne, ne_eq, Bool.and_eq_false_iff, Bool.not_eq_false'] at hactive
  have hbare := hactive.2.resolve_left Bool.false_ne_true
  simp [isCalm, hbare, hdollar, hactive.1]

theorem Quiet.append {front back : ScriptText} (hfront : Quiet front) (hback : Quiet back) :
    Quiet (front ++ back) :=
  fun g hg ↦ (List.mem_append.mp hg).elim (hfront g) (hback g)

theorem quiet_spaced {α : Type} {items : List α} {text : α → ScriptText}
    (h : ∀ item ∈ items, Quiet (text item)) : Quiet (spaced (items.map text)) := by
  intro g hg
  match mem_intercalate hg with
  | .inl hspace => exact quiet_own (by decide) g hspace
  | .inr ⟨part, hpart, hin⟩ =>
    have ⟨item, hitem, heq⟩ := List.mem_map.mp hpart
    exact h item hitem g (heq ▸ hin)

theorem quiet_configArgs : Quiet deployment.configArgs :=
  quiet_spaced fun config _ ↦ (quiet_own (by decide)).append (quiet_value config.toList)

theorem quiet_capabilityOption (capability : Option String) :
    Quiet (capabilityOption capability) := by
  unfold capabilityOption
  split
  · exact (quiet_own (by decide)).append (quiet_value _)
  · exact quiet_nil

theorem quiet_pytestPassthrough (args : List String) : Quiet (pytestPassthrough args) := by
  unfold pytestPassthrough
  split
  · exact quiet_nil
  · exact (quiet_own (by decide)).append (quiet_spaced fun arg _ ↦ quiet_value _)

theorem harmless_forwarded {ngcApiKey sourceRef : String} :
    ∀ item ∈ forwarded ngcApiKey sourceRef,
      ∀ c ∈ (item.1 ++ "=").toList, Shlex.isHarmless c = true := by
  intro item hitem
  have hname : item.1 = "NGC_API_KEY" ∨ item.1 = "ISVTEST_BUILD_REF" := by
    unfold forwarded at hitem
    match List.mem_append.mp hitem with
    | .inl hkey =>
      split_ifs at hkey
      · exact absurd hkey List.not_mem_nil
      · exact .inl (congrArg Prod.fst (List.mem_singleton.mp hkey))
    | .inr href =>
      split_ifs at href
      · exact absurd href List.not_mem_nil
      · exact .inr (congrArg Prod.fst (List.mem_singleton.mp href))
  match hname with
  | .inl heq =>
    rw [heq]
    decide +kernel
  | .inr heq =>
    rw [heq]
    decide +kernel

theorem quiet_remoteEnvAssignments (ngcApiKey sourceRef : String) :
    Quiet (remoteEnvAssignments ngcApiKey sourceRef) :=
  quiet_spaced fun item hitem ↦
    (quiet_harmless (harmless_forwarded item hitem)).append (quiet_value _)

theorem harmless_phase (phase : Phase) :
    ∀ c ∈ phase.value.toList, Shlex.isHarmless c = true := by
  cases phase <;> decide +kernel

theorem quiet_passedOn : Quiet deployment.passedOn :=
  ((quiet_capabilityOption _).append (quiet_own (by decide))).append (quiet_pytestPassthrough _)

theorem quiet_messageFront : Quiet deployment.messageFront := by
  have hphase : Quiet (own (" --phase " ++ deployment.phase.value ++ " ")) := by
    rw [own_append, own_append]
    exact ((quiet_own (by decide)).append (quiet_harmless (harmless_phase _))).append
      (quiet_own (by decide))
  exact ((quiet_own (by decide)).append quiet_configArgs).append hphase

/-! ## Words which are carried -/

/-- The text as the characters of a word. -/
def shownText (text : String) : List Shown := text.toList.map Shown.char

/-- A text is read as words which the command receives as these. -/
def Carries (dialect : Dialect) (text : ScriptText) (received : List (List Shown)) : Prop :=
  ∃ words, Appends dialect text words ∧ words.map Word.shown = received

theorem carries_nil : Carries dialect [] [] := ⟨[], appends_nil, rfl⟩

theorem Carries.append {front back : ScriptText} {before behind : List (List Shown)}
    (hfront : Carries dialect front before) (hback : Carries dialect back behind) :
    Carries dialect (front ++ own " " ++ back) (before ++ behind) := by
  have ⟨first, hfirst, hbefore⟩ := hfront
  have ⟨second, hsecond, hbehind⟩ := hback
  refine ⟨first ++ second, hfirst.append hsecond, ?_⟩
  rw [List.map_append, hbefore, hbehind]

theorem carries_spaced {α : Type} {items : List α} {text : α → ScriptText}
    {received : α → List (List Shown)}
    (h : ∀ item ∈ items, Carries dialect (text item) (received item)) :
    Carries dialect (spaced (items.map text)) (items.flatMap received) := by
  induction items with
  | nil => exact carries_nil
  | cons item items ih =>
    have hitem := h item List.mem_cons_self
    have hrest := ih fun other hother ↦ h other (List.mem_cons_of_mem item hother)
    match items with
    | [] =>
      rw [List.map_cons, List.map_nil, spaced, List.intercalate_singleton, List.flatMap_cons,
        List.flatMap_nil, List.append_nil]
      exact hitem
    | next :: items =>
      rw [List.map_cons, List.map_cons, spaced, List.intercalate_cons_cons, List.flatMap_cons]
      exact hitem.append hrest

theorem carries_harmless {text : String} (hne : text ≠ "")
    (h : ∀ c ∈ text.toList, Shlex.isHarmless c = true) :
    Carries dialect (own text) [shownText text] := by
  have hword : Appends dialect (own text : ScriptText)
      [(own text : ScriptText).map (Glyph.piece false)] := by
    apply appends_harmless
    · exact fun hnil ↦ hne (String.toList_eq_nil_iff.mp (List.map_eq_nil_iff.mp hnil))
    · intro g hg
      have ⟨c, hc, heq⟩ := List.mem_map.mp hg
      exact heq ▸ h c hc
  refine ⟨_, hword, ?_⟩
  simp [Word.shown, shownText, own, Glyph.piece, Function.comp_def]

theorem carries_words {words : List String}
    (h : ∀ word ∈ words, word ≠ "" ∧ ∀ c ∈ word.toList, Shlex.isHarmless c = true) :
    Carries dialect (spaced (words.map own)) (words.map shownText) := by
  have hwords : Carries dialect (spaced (words.map own))
      (words.flatMap fun word ↦ [shownText word]) :=
    carries_spaced fun word hword ↦ carries_harmless (h word hword).1 (h word hword).2
  rw [← List.map_eq_flatMap] at hwords
  exact hwords

theorem carries_quoted {front : String} (hfront : ∀ c ∈ front.toList, Shlex.isHarmless c = true)
    (word : String) :
    Carries dialect (own front ++ quotedText word) [shownText (front ++ word)] := by
  have hharmless : ∀ g ∈ (own front : ScriptText), Shlex.isHarmless g.char = true := by
    intro g hg
    have ⟨c, hc, heq⟩ := List.mem_map.mp hg
    exact heq ▸ hfront c hc
  have ⟨piece, happends, hshown⟩ := @appends_quoted ScriptLine dialect _ hharmless word
  refine ⟨[piece], happends, ?_⟩
  rw [List.map_singleton, hshown, shownText, String.toList_append, own, List.map_map]
  simp

theorem carries_quotedText (word : String) :
    Carries dialect (quotedText word) [shownText word] := by
  have hempty := @carries_quoted dialect "" (by decide) word
  rw [String.empty_append] at hempty
  exact hempty

/-! ## The words of the test run -/

/-- What the test run receives for the config paths. -/
def configWords (configs : List String) : List (List Shown) :=
  configs.flatMap fun config ↦ [shownText "-f", shownText config]

namespace Deployment

variable (deployment : Deployment)

/-- Between `sudo` and the config paths. -/
def runFront : ScriptText :=
  own "-E env" ++ own " " ++ own "PATH=\"$PATH\"" ++ own " " ++ own "PYTHONUNBUFFERED=1" ++ own " " ++
    remoteEnvAssignments deployment.ngcApiKey deployment.sourceRef ++ own " " ++
    own "uv run isvctl test run"

def frontWords : List (List Shown) :=
  ["-E", "env"].map shownText ++ [shownText "PATH=" ++ [.parameter "PATH".toList]] ++
    [shownText "PYTHONUNBUFFERED=1"] ++
    (forwarded deployment.ngcApiKey deployment.sourceRef).map
      (fun item ↦ shownText (item.1 ++ "=" ++ item.2)) ++
    ["uv", "run", "isvctl", "test", "run"].map shownText

/-- Behind the config paths. -/
def runBack : ScriptText :=
  own "--phase" ++ own " " ++ own deployment.phase.value ++ own " " ++
    capabilityOption deployment.capability ++ own " " ++
    own "--color=yes --junitxml=junit-validation.xml" ++ own " " ++
    pytestPassthrough deployment.args

def backWords : List (List Shown) :=
  [shownText "--phase"] ++ [shownText deployment.phase.value] ++
    ((deployment.capability.filter (· ≠ "")).toList.flatMap fun capability ↦
      [shownText "--capability", shownText capability]) ++
    ["--color=yes", "--junitxml=junit-validation.xml"].map shownText ++
    match deployment.args with
    | [] => []
    | args => shownText "--" :: args.map shownText

end Deployment

theorem testRunWords_eq : deployment.testRunWords =
    [shownText "sudo"] ++ (deployment.frontWords ++ configWords deployment.configs ++
      deployment.backWords) := by
  simp only [Deployment.testRunWords, Deployment.frontWords, Deployment.backWords, configWords,
    List.map_cons, List.map_nil, List.append_assoc, List.cons_append, List.nil_append]
  rfl

theorem testRunLine_eq : deployment.testRunLine =
    first .testRun "sudo" ++ own " " ++ (deployment.runFront ++ own " " ++ deployment.configArgs ++
      own " " ++ deployment.runBack) := by
  have hfront : (own " -E env PATH=\"$PATH\" PYTHONUNBUFFERED=1 " : ScriptText) =
      own " " ++ own "-E env" ++ own " " ++ own "PATH=\"$PATH\"" ++ own " " ++
        own "PYTHONUNBUFFERED=1" ++ own " " := by
    simp only [← own_append]
    exact congrArg own (by decide +kernel)
  have hrun : (own " uv run isvctl test run " : ScriptText) =
      own " " ++ own "uv run isvctl test run" ++ own " " := by
    simp only [← own_append]
    exact congrArg own (by decide +kernel)
  have hphase : (own (" --phase " ++ deployment.phase.value ++ " ") : ScriptText) =
      own " " ++ own "--phase" ++ own " " ++ own deployment.phase.value ++ own " " := by
    simp only [← own_append]
    exact congrArg (fun start ↦ own (start ++ deployment.phase.value ++ " ")) (by decide +kernel)
  have hcolor : (own " --color=yes --junitxml=junit-validation.xml " : ScriptText) =
      own " " ++ own "--color=yes --junitxml=junit-validation.xml" ++ own " " := by
    simp only [← own_append]
    exact congrArg own (by decide +kernel)
  rw [Deployment.testRunLine, hfront, hrun, hphase, hcolor, Deployment.runFront, Deployment.runBack]
  simp only [List.append_assoc]

theorem carries_runFront : Carries dialect deployment.runFront deployment.frontWords := by
  have hcommand : Carries dialect (own "-E env") (["-E", "env"].map shownText) :=
    @carries_words dialect ["-E", "env"] (by decide +kernel)
  have hpath : Carries dialect (own "PATH=\"$PATH\"")
      [shownText "PATH=" ++ [.parameter "PATH".toList]] := by
    have ⟨word, happends, hshown⟩ := @appends_path dialect
    exact ⟨[word], happends, congrArg (fun shown ↦ [shown]) hshown⟩
  have hbuffer : Carries dialect (own "PYTHONUNBUFFERED=1") [shownText "PYTHONUNBUFFERED=1"] :=
    carries_harmless (by decide) (by decide +kernel)
  have henv : Carries dialect (remoteEnvAssignments deployment.ngcApiKey deployment.sourceRef)
      ((forwarded deployment.ngcApiKey deployment.sourceRef).map
        fun item ↦ shownText (item.1 ++ "=" ++ item.2)) := by
    rw [List.map_eq_flatMap]
    exact carries_spaced fun item hitem ↦ carries_quoted (harmless_forwarded item hitem) item.2
  have hrun : Carries dialect (own "uv run isvctl test run")
      (["uv", "run", "isvctl", "test", "run"].map shownText) :=
    @carries_words dialect ["uv", "run", "isvctl", "test", "run"] (by decide +kernel)
  exact (((hcommand.append hpath).append hbuffer).append henv).append hrun

theorem carries_capabilityOption (capability : Option String) :
    Carries dialect (capabilityOption capability)
      ((capability.filter (· ≠ "")).toList.flatMap fun capability ↦
        [shownText "--capability", shownText capability]) := by
  unfold capabilityOption
  split
  · next given heq =>
    rw [heq]
    have hoption : Carries dialect (own "--capability") [shownText "--capability"] :=
      carries_harmless (by decide) (by decide +kernel)
    exact hoption.append (carries_quotedText given)
  · next heq =>
    rw [heq]
    exact carries_nil

theorem carries_pytestPassthrough (args : List String) :
    Carries dialect (pytestPassthrough args)
      (match args with
      | [] => []
      | args => shownText "--" :: args.map shownText) := by
  unfold pytestPassthrough
  match args with
  | [] => exact carries_nil
  | arg :: args =>
    have hdashes : Carries dialect (own "--") [shownText "--"] :=
      carries_harmless (by decide) (by decide)
    have hargs : Carries dialect (spaced ((arg :: args).map quotedText))
        ((arg :: args).flatMap fun word ↦ [shownText word]) :=
      carries_spaced fun word _ ↦ carries_quotedText word
    rw [← List.map_eq_flatMap] at hargs
    exact hdashes.append hargs

theorem carries_runBack : Carries dialect deployment.runBack deployment.backWords := by
  have hphase : Carries dialect (own "--phase") [shownText "--phase"] :=
    carries_harmless (by decide) (by decide +kernel)
  have hvalue : Carries dialect (own deployment.phase.value) [shownText deployment.phase.value] :=
    carries_harmless (by cases deployment.phase <;> decide) (harmless_phase deployment.phase)
  have hcolor : Carries dialect (own "--color=yes --junitxml=junit-validation.xml")
      (["--color=yes", "--junitxml=junit-validation.xml"].map shownText) :=
    @carries_words dialect ["--color=yes", "--junitxml=junit-validation.xml"] (by decide +kernel)
  exact (((hphase.append hvalue).append (carries_capabilityOption _)).append hcolor).append
    (carries_pytestPassthrough _)

/-! ## Config paths -/

/-- An accepted path begins with a letter. -/
theorem accepted_toList {config : String} (h : acceptedConfig config = true) :
    ∃ rest, config.toList = 'i' :: rest := by
  have ⟨start, hstart, hstartsWith⟩ := List.any_eq_true.mp h
  have ⟨rest, hrest⟩ := List.isPrefixOf_iff_prefix.mp hstartsWith
  have hfirst : ∀ start ∈ ["isvctl/", "isvtest/", "isvreporter/"],
      start.toList = 'i' :: start.toList.tail := by decide
  rw [hfirst start hstart] at hrest
  exact ⟨_, hrest.symm⟩

/-- The option with a config path. -/
def configText (config : String) : ScriptText := own "-f " ++ value config.toList

theorem carries_config {config : String} (haccepted : acceptedConfig config = true)
    (hplain : IsPlain dialect config.toList) :
    Carries dialect (configText config) [shownText "-f", shownText config] := by
  have hoption : Carries dialect (own "-f") [shownText "-f"] :=
    carries_harmless (by decide) (by decide)
  have hvalue : Carries dialect (value config.toList) [shownText config] := by
    have ⟨rest, hrest⟩ := accepted_toList haccepted
    rw [shownText]
    rw [hrest] at hplain ⊢
    refine ⟨_, appends_value (by decide) hplain, ?_⟩
    simp [Word.shown, value, Glyph.piece]
  exact hoption.append hvalue

/-- A config path which is not plain is not received as it is. -/
theorem read_configs_spoilt {configs : List String}
    (haccepted : ∀ config ∈ configs, acceptedConfig config = true)
    (hnot : ∃ config ∈ configs, ¬ IsPlain dialect config.toList) {r : Reader ScriptLine}
    (h : r.Ready) (hdone : ∀ command ∈ r.commands, command.line ≠ some .testRun) :
    ∃ place shown,
      (∀ tail, (r.words.map Word.shown ++ configWords configs ++ tail)[place]? = some shown) ∧
      (r.read dialect (configs.flatMap fun config ↦ configText config ++ own " ")).Spoilt .testRun
        place shown := by
  induction configs generalizing r with
  | nil =>
    obtain ⟨_, hconfig, _⟩ := hnot
    exact absurd hconfig List.not_mem_nil
  | cons config configs ih =>
    rw [List.flatMap_cons, read_append]
    by_cases hplain : IsPlain dialect config.toList
    · obtain ⟨words, happends, hshown⟩ := carries_config (haccepted config List.mem_cons_self) hplain
      have hrest : ∃ config ∈ configs, ¬ IsPlain dialect config.toList := by
        obtain ⟨other, hother, hbad⟩ := hnot
        rcases List.mem_cons.mp hother with heq | hmem
        · exact absurd hplain (heq ▸ hbad)
        · exact ⟨other, hmem, hbad⟩
      obtain ⟨place, shown, hplace, hspoilt⟩ := ih
        (fun other hother ↦ haccepted other (List.mem_cons_of_mem config hother)) hrest
        (h.append words) hdone
      refine ⟨place, shown, fun tail ↦ ?_, ?_⟩
      · rw [← hplace tail, Reader.append, List.map_append, hshown, configWords, List.flatMap_cons,
          configWords, ← List.append_assoc]
      · rw [happends r h]
        exact hspoilt
    · obtain ⟨rest, hrest⟩ := accepted_toList (haccepted config List.mem_cons_self)
      have hoption : Carries dialect (own "-f" : ScriptText) [shownText "-f"] :=
        carries_harmless (by decide) (by decide)
      obtain ⟨words, happends, hshown⟩ := hoption
      have hsplit : configText config ++ own " " =
          own "-f" ++ own " " ++ (value ('i' :: rest) ++ own " ") := by
        rw [configText, hrest]
        rfl
      rw [hrest] at hplain
      have hspoilt := @read_notPlain ScriptLine dialect _ .testRun 'i' rest (by decide)
        (h.append words) (by decide) hplain hdone
      refine ⟨(r.append words).words.length, ('i' :: rest).map Shown.char, fun tail ↦ ?_, ?_⟩
      · have hlength : (r.append words).words.length =
            (r.words.map Word.shown ++ [shownText "-f"]).length := by
          rw [← hshown, ← List.map_append, List.length_map, Reader.append]
        have hsplit : r.words.map Word.shown ++ configWords (config :: configs) ++ tail =
            r.words.map Word.shown ++ [shownText "-f"] ++
              ('i' :: rest).map Shown.char :: (configWords configs ++ tail) := by
          rw [configWords, List.flatMap_cons, shownText, shownText, hrest]
          simp [configWords, shownText]
        rw [hsplit, hlength, List.getElem?_append_right (Nat.le_refl _), Nat.sub_self]
        rfl
      · apply read_spoilt
        · intro g hg
          obtain ⟨other, _, hin⟩ := List.mem_flatMap.mp hg
          have hquiet : Quiet (configText other ++ own " ") :=
            ((quiet_own (by decide)).append (quiet_value _)).append (quiet_own (by decide))
          rw [(hquiet g hin).2]
          exact fun hline ↦ by cases hline
        · rw [hsplit, read_append, happends r h]
          exact hspoilt

theorem configArgs_space : deployment.configArgs ++ own " " =
    deployment.configs.flatMap fun config ↦ configText config ++ own " " := by
  have hspaced : ∀ configs : List String, configs ≠ [] →
      spaced (configs.map configText) ++ own " " =
        configs.flatMap fun config ↦ configText config ++ own " " := by
    intro configs
    induction configs with
    | nil => exact fun hne ↦ absurd rfl hne
    | cons config configs ih =>
      intro _
      match configs with
      | [] => simp [spaced]
      | next :: configs =>
        rw [List.map_cons, List.map_cons, spaced, List.intercalate_cons_cons, List.flatMap_cons,
          ← ih (List.cons_ne_nil next configs), spaced, List.map_cons]
        simp only [List.append_assoc]
  exact hspaced deployment.configs deployment.ne_nil

end IsvValidation.Deploy
