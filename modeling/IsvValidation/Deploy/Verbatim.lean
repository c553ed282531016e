import IsvValidation.Deploy.ScriptWords

/-!
# When the script carries its values

The remote shell reads the test run's words as they are meant exactly when three conditions hold. The
remote directory and the part of the message which holds the quoted arguments have to end their lines
when they are read between double quotes, and every config path has to be a plain word. The words
which `shlex.quote` writes outside of double quotes are always read back.
-/

namespace IsvValidation.Deploy

open Host Library Library.Shell Library.Shell.Reader Orchestrator
open Host.ShellQuoting

variable {dialect : Dialect} {deployment : Deployment}

/-! ## The parts of the script -/

namespace Deployment

variable (deployment : Deployment)

/-- Up to the message. -/
def beforeMessage : ScriptText :=
  ownLines opening ++ (first .cd "cd" ++ own " \"") ++
    (value deployment.effectiveRemoteDir.toList ++ own "\"\n") ++ ownLines preparation

/-- The text of the message. -/
def message : ScriptText := deployment.messageFront ++ deployment.passedOn

/-- Up to the test run. -/
def beforeRun : ScriptText :=
  deployment.beforeMessage ++ (first .announce "echo" ++ own " \"") ++
    (deployment.message ++ own "\"\n") ++ ownLines options

/-- What `sudo` gets, and the lines which follow. -/
def afterSudo : ScriptText :=
  deployment.runFront ++ own " " ++ (deployment.configArgs ++ own " ") ++
    (deployment.runBack ++ own " ") ++ own "2>&1 |" ++ own " tee pytest-output.log\n" ++
    ownLines closing

end Deployment

theorem remoteScript_eq : deployment.remoteScript =
    deployment.beforeRun ++ (first .testRun "sudo" ++ own " ") ++ deployment.afterSudo := by
  have hpipe : (own " 2>&1 | tee pytest-output.log\n" : ScriptText) =
      own " " ++ own "2>&1 |" ++ own " tee pytest-output.log\n" := by
    simp only [← own_append]
    exact congrArg own (by decide +kernel)
  have hecho : (own " \"Command: isvctl test run " : ScriptText) =
      own " \"" ++ own "Command: isvctl test run " := by
    simp only [← own_append]
    exact congrArg own (by decide +kernel)
  rw [Deployment.remoteScript, Deployment.announcement, testRunLine_eq, hpipe, hecho,
    Deployment.beforeRun, Deployment.beforeMessage, Deployment.message, Deployment.messageFront,
    Deployment.afterSudo]
  simp only [List.append_assoc]

/-- No character begins a line. -/
def Avoids (line : ScriptLine) (text : ScriptText) : Prop := ∀ g ∈ text, g.line? ≠ some line

theorem Avoids.append {line : ScriptLine} {front back : ScriptText} (hfront : Avoids line front)
    (hback : Avoids line back) : Avoids line (front ++ back) :=
  fun g hg ↦ (List.mem_append.mp hg).elim (hfront g) (hback g)

theorem Quiet.avoids {line : ScriptLine} {text : ScriptText} (h : Quiet text) : Avoids line text :=
  fun g hg hline ↦ nomatch (h g hg).2.symm.trans hline

theorem avoids_own {line : ScriptLine} {text : String} : Avoids line (own text) :=
  fun g hg hline ↦ nomatch (line?_own g hg).symm.trans hline

theorem avoids_ownLines {line : ScriptLine} {lines : List String} : Avoids line (ownLines lines) :=
  fun g hg hline ↦ nomatch (line?_ownLines g hg).symm.trans hline

theorem avoids_first {line other : ScriptLine} {text : String} (hne : other ≠ line) :
    Avoids line (first other text) := by
  intro g hg hline
  have ⟨c, _, heq⟩ := List.mem_map.mp hg
  rw [← heq] at hline
  exact hne (Option.some.inj hline)

theorem avoids_runBack {line : ScriptLine} : Avoids line deployment.runBack :=
  (((((((avoids_own.append avoids_own).append avoids_own).append avoids_own).append
    (quiet_capabilityOption _).avoids).append avoids_own).append avoids_own).append
      avoids_own).append (quiet_pytestPassthrough _).avoids

theorem avoids_afterSudo {line : ScriptLine} : Avoids line deployment.afterSudo := by
  have hfront : Avoids line deployment.runFront :=
    (((((((avoids_own.append avoids_own).append avoids_own).append avoids_own).append
      avoids_own).append avoids_own).append (quiet_remoteEnvAssignments _ _).avoids).append
        avoids_own).append avoids_own
  exact (((((hfront.append avoids_own).append
    (quiet_configArgs.avoids.append avoids_own)).append (avoids_runBack.append avoids_own)).append
      avoids_own).append avoids_own).append avoids_ownLines

theorem avoids_beforeMessage {line : ScriptLine} (hne : .cd ≠ line) :
    Avoids line deployment.beforeMessage :=
  ((avoids_ownLines.append ((avoids_first hne).append avoids_own)).append
    ((quiet_value _).avoids.append avoids_own)).append avoids_ownLines

/-! ## Lines between quotes -/

/-- Lines of the script's own leave the reader between quotes when it is there. -/
theorem read_quotedLines {lines : List String} (hlines : ∀ line ∈ lines, isSettled line.toList = true)
    {r : Reader ScriptLine} (hmode : r.mode = .single ∨ r.mode = .double) :
    ((r.read dialect (ownLines lines)).mode = .single ∨
        (r.read dialect (ownLines lines)).mode = .double) ∨
      (r.read dialect (ownLines lines)).mode = .lost := by
  induction lines generalizing r with
  | nil => exact .inl hmode
  | cons line lines ih =>
    have hsettled := hlines line List.mem_cons_self
    rw [isSettled, Bool.and_eq_true, List.all_eq_true] at hsettled
    have hsame : line.toList.foldl nextMode r.mode = r.mode := by
      rcases hmode with h | h
      · rw [h, beq_iff_eq.mp (hsettled.2 .single (by simp))]
      · rw [h, beq_iff_eq.mp (hsettled.2 .double (by simp))]
    have hread := @read_mode ScriptLine dialect r (own line) fun g hg ↦ by
      obtain ⟨c, _, heq⟩ := List.mem_map.mp hg
      exact heq ▸ rfl
    rw [own, List.foldl_map, hsame] at hread
    rw [ownLines, List.flatMap_cons, read_append, own]
    rcases hread with hnext | hlost
    · exact ih (fun other hother ↦ hlines other (List.mem_cons_of_mem line hother)) (by rwa [hnext])
    · rw [read_lost hlost]
      exact .inr hlost

/-- A line begins behind a text between double quotes only when the text has ended its own. -/
theorem endsLine_of_begun {r : Reader ScriptLine} {current line : ScriptLine}
    {commands : List (Command ScriptLine)} {text rest : ScriptText} {lines : List String}
    {lead : String} (hwithin : r.Within (some current) commands) (htext : ∀ g ∈ text, isCalm g = true)
    (hlines : ∀ line ∈ lines, isSettled line.toList = true)
    (hlead : ∀ c ∈ lead.toList, isInert c = true) (hrest : Avoids line rest)
    (hnot : (r.read dialect (text ++ own "\"\n")).NotBegun line)
    (hmode : (r.read dialect (text ++ own "\"\n" ++ ownLines lines ++ first line lead ++ rest)).mode ≠
      .lost)
    (hbegun : ∃ command ∈ (r.read dialect
      (text ++ own "\"\n" ++ ownLines lines ++ first line lead ++ rest)).commands,
        command.line = some line) :
    r.EndsLine dialect text := by
  have hends : r.EndsLine dialect text ∨
      ((r.read dialect (text ++ own "\"\n")).mode = .single ∨
          (r.read dialect (text ++ own "\"\n")).mode = .double) ∨
      (r.read dialect (text ++ own "\"\n")).mode = .lost := hwithin.endsLine_or htext
  apply hends.resolve_right
  rw [read_append, read_append, read_append] at hmode hbegun
  generalize r.read dialect (text ++ own "\"\n") = quoted at hmode hbegun hnot
  intro hbad
  have hlines : (quoted.read dialect (ownLines lines)).mode = .single ∨
      (quoted.read dialect (ownLines lines)).mode = .double := by
    match hbad with
    | .inl hquoted =>
      have hread := @read_quotedLines dialect lines hlines quoted hquoted
      apply hread.resolve_right
      intro hlost
      rw [read_lost hlost, read_lost hlost] at hmode
      exact hmode hlost
    | .inr hlost =>
      rw [read_lost hlost, read_lost hlost, read_lost hlost] at hmode
      exact absurd hlost hmode
  have hstill : (quoted.read dialect (ownLines lines)).NotBegun line :=
    read_notBegun avoids_ownLines hnot
  have hread := @read_inert ScriptLine dialect _ hlines (first line lead) fun g hg ↦ by
    have ⟨c, hc, heq⟩ := List.mem_map.mp hg
    exact heq ▸ hlead c hc
  rw [hread] at hbegun
  have hend : (Reader.read dialect { quoted.read dialect (ownLines lines) with
      token := (quoted.read dialect (ownLines lines)).token ++
        (first line lead).map (Glyph.piece true) } rest).NotBegun line :=
    read_notBegun hrest hstill
  have ⟨command, hcommand, hline⟩ := hbegun
  exact hend.2 command hcommand hline

/-! ## The three conditions -/

/-- The values of the script, and the script's own text, begin no line by themselves. -/
theorem fresh_notBegun (line : ScriptLine) : (fresh [] : Reader ScriptLine).NotBegun line :=
  ⟨fun h ↦ (nomatch h), fun _ hcommand ↦ absurd hcommand List.not_mem_nil⟩

theorem within_directory (commands : List (Command ScriptLine)) :
    (directoryReader.after commands).Within (some .cd) commands :=
  ⟨rfl, rfl, List.cons_ne_nil _ _, rfl, List.append_nil commands⟩

theorem within_message (commands : List (Command ScriptLine)) :
    (messageReader.after commands).Within (some .announce) commands :=
  ⟨rfl, rfl, List.cons_ne_nil _ _, rfl, List.append_nil commands⟩

theorem endsLine_after {r : Reader ScriptLine} {commands : List (Command ScriptLine)}
    {text : ScriptText} : (r.after commands).EndsLine dialect text ↔ r.EndsLine dialect text := by
  unfold EndsLine
  rw [read_after]
  generalize r.read dialect (text ++ own "\"\n") = next
  have ⟨mode, token, target, line, words, others⟩ := next
  simp [Reader.after, fresh]

theorem read_opening : ∃ commands,
    (fresh []).read dialect
      (ownLines Deployment.opening ++ (first ScriptLine.cd "cd" ++ own " \"")) =
        directoryReader.after commands := by
  have ⟨later, hread⟩ := @read_lines ScriptLine dialect _ isLine_opening
  refine ⟨later, ?_⟩
  rw [read_append, ownLines, hread, read_fresh, read_cd]

theorem quiet_message : Quiet deployment.message := quiet_messageFront.append quiet_passedOn

/-- Where the script carries its values, the remote directory ends its line. -/
theorem directory_of_carries (h : CarriesVerbatim dialect deployment) :
    EndsLine dialect directoryReader (value deployment.effectiveRemoteDir.toList) := by
  have ⟨commands, hopen⟩ := @read_opening dialect
  let rest : ScriptText := own " \"" ++ (deployment.message ++ own "\"\n") ++
    ownLines Deployment.options ++ (first .testRun "sudo" ++ own " ") ++ deployment.afterSudo
  have hscript : Reader.read dialect {} deployment.remoteScript =
      (directoryReader.after commands).read dialect
        (value deployment.effectiveRemoteDir.toList ++ own "\"\n" ++ ownLines Deployment.preparation ++
          first .announce "echo" ++ rest) := by
    rw [← hopen, ← read_append, remoteScript_eq, Deployment.beforeRun, Deployment.beforeMessage]
    simp only [rest, List.append_assoc]
    rfl
  have hrest : Avoids .announce rest :=
    (((avoids_own.append (quiet_message.avoids.append avoids_own)).append avoids_ownLines).append
      ((avoids_first (by decide)).append avoids_own)).append avoids_afterSudo
  have hnot : ((directoryReader.after commands).read dialect
      (value deployment.effectiveRemoteDir.toList ++ own "\"\n")).NotBegun .announce := by
    rw [← hopen, ← read_append]
    exact read_notBegun ((avoids_ownLines.append ((avoids_first (by decide)).append
      avoids_own)).append ((quiet_value _).avoids.append avoids_own)) (fresh_notBegun _)
  have hmode := h.untouched
  have hbegun := h.lines .announce
  rw [hscript] at hmode hbegun
  exact endsLine_after.mp (endsLine_of_begun (within_directory commands)
    (fun g hg ↦ (quiet_value _ g hg).1) isSettled_preparation (by decide) hrest hnot hmode hbegun)

/-- The lines up to the message are commands of their own. -/
theorem read_beforeMessage
    (h : EndsLine dialect directoryReader (value deployment.effectiveRemoteDir.toList)) :
    ∃ commands, (fresh []).read dialect deployment.beforeMessage = fresh commands ∧
      ∃ command ∈ commands, command.line = some .cd := by
  have ⟨commands, hopen⟩ := @read_opening dialect
  have ⟨words, hread⟩ := (endsLine_after.mpr h).command (within_directory commands)
    fun g hg ↦ (quiet_value _ g hg).1
  have ⟨later, hlines⟩ := @read_lines ScriptLine dialect Deployment.preparation fun line hline ↦
    (Bool.and_eq_true_iff.mp (isSettled_preparation line hline)).1
  refine ⟨commands ++ [⟨some .cd, words⟩] ++ later, ?_, ⟨some .cd, words⟩, by simp, rfl⟩
  rw [Deployment.beforeMessage, read_append, read_append, hopen, hread, read_fresh, ownLines, hlines]
  rfl

theorem read_toMessage {commands : List (Command ScriptLine)}
    (h : (fresh []).read dialect deployment.beforeMessage = fresh commands) :
    (fresh []).read dialect (deployment.beforeMessage ++ (first .announce "echo" ++ own " \"")) =
      messageReader.after commands := by
  rw [read_append, h, read_fresh, read_echo]

/-- Where the script carries its values, the message ends its line. -/
theorem message_of_carries (h : CarriesVerbatim dialect deployment) :
    EndsLine dialect messageReader deployment.message := by
  have ⟨commands, hbefore, _⟩ := read_beforeMessage (directory_of_carries h)
  have hopen := read_toMessage hbefore
  let rest : ScriptText := own " " ++ deployment.afterSudo
  have hscript : Reader.read dialect {} deployment.remoteScript =
      (messageReader.after commands).read dialect
        (deployment.message ++ own "\"\n" ++ ownLines Deployment.options ++ first .testRun "sudo" ++
          rest) := by
    rw [← hopen, ← read_append, remoteScript_eq, Deployment.beforeRun]
    simp only [rest, List.append_assoc]
    rfl
  have hnot : ((messageReader.after commands).read dialect
      (deployment.message ++ own "\"\n")).NotBegun .testRun := by
    rw [← hopen, ← read_append]
    exact read_notBegun (((avoids_beforeMessage (by decide)).append ((avoids_first (by decide)).append
      avoids_own)).append (quiet_message.avoids.append avoids_own)) (fresh_notBegun _)
  have hmode := h.untouched
  have hbegun := h.lines .testRun
  rw [hscript] at hmode hbegun
  exact endsLine_after.mp (endsLine_of_begun (within_message commands)
    (fun g hg ↦ (quiet_message g hg).1) isSettled_options (by decide)
    (avoids_own.append avoids_afterSudo) hnot hmode hbegun)

/-- The lines up to the test run are commands of their own. -/
theorem read_beforeRun
    (hdirectory : EndsLine dialect directoryReader (value deployment.effectiveRemoteDir.toList))
    (hmessage : EndsLine dialect messageReader deployment.message) :
    ∃ commands, (fresh []).read dialect deployment.beforeRun = fresh commands ∧
      (∃ command ∈ commands, command.line = some .cd) ∧
      ∃ command ∈ commands, command.line = some .announce := by
  have ⟨commands, hbefore, cd, hcd, hline⟩ := read_beforeMessage hdirectory
  have ⟨words, hread⟩ := (endsLine_after.mpr hmessage).command (within_message commands)
    fun g hg ↦ (quiet_message g hg).1
  have ⟨later, hlines⟩ := @read_lines ScriptLine dialect Deployment.options fun line hline ↦
    (Bool.and_eq_true_iff.mp (isSettled_options line hline)).1
  refine ⟨commands ++ [⟨some .announce, words⟩] ++ later, ?_, ⟨cd, by simp [hcd], hline⟩,
    ⟨some .announce, words⟩, by simp, rfl⟩
  rw [Deployment.beforeRun, read_append, read_append, read_toMessage hbefore, hread, read_fresh,
    ownLines, hlines]
  rfl

theorem ready_run {commands : List (Command ScriptLine)} : (runReader.after commands).Ready :=
  ⟨rfl, rfl, rfl, List.cons_ne_nil _ _⟩

/-- Up to the config paths, the test run gets the words it should. -/
theorem read_runFront {commands : List (Command ScriptLine)}
    (hbefore : (fresh []).read dialect deployment.beforeRun = fresh commands) :
    ∃ words, words.map Word.shown = deployment.frontWords ∧
      (fresh []).read dialect (deployment.beforeRun ++ (first .testRun "sudo" ++ own " ") ++
        (deployment.runFront ++ own " ")) = (runReader.after commands).append words := by
  have ⟨words, happends, hshown⟩ := @carries_runFront dialect deployment
  have hsudo : (fresh []).read dialect (deployment.beforeRun ++ (first .testRun "sudo" ++ own " ")) =
      runReader.after commands := by
    rw [read_append, hbefore, read_fresh, read_sudo]
  refine ⟨words, hshown, ?_⟩
  rw [read_append, hsudo, happends _ ready_run]

theorem avoids_beforeRun : Avoids .testRun deployment.beforeRun :=
  (((avoids_beforeMessage (by decide)).append ((avoids_first (by decide)).append avoids_own)).append
    (quiet_message.avoids.append avoids_own)).append avoids_ownLines

theorem runWords_shown {words : List Word} {commands : List (Command ScriptLine)}
    (h : words.map Word.shown = deployment.frontWords) :
    ((runReader.after commands).append words).words.map Word.shown =
      shownText "sudo" :: deployment.frontWords := by
  rw [← h]
  rfl

/-- Where the script carries its values, the config paths are plain. -/
theorem plain_of_carries (h : CarriesVerbatim dialect deployment) :
    ∀ config ∈ deployment.configs, IsPlain dialect config.toList := by
  have ⟨commands, hbefore, _⟩ := read_beforeRun (directory_of_carries h) (message_of_carries h)
  have ⟨words, hshown, hread⟩ := read_runFront hbefore
  by_contra hnot
  push Not at hnot
  have hdone : ∀ command ∈ ((runReader.after commands).append words).commands,
      command.line ≠ some .testRun := by
    have hbegun : (fresh commands).NotBegun .testRun := by
      rw [← hbefore]
      exact read_notBegun avoids_beforeRun (fresh_notBegun _)
    intro command hcommand
    exact hbegun.2 command ((List.append_nil commands).symm ▸ hcommand)
  have ⟨place, shown, hplace, hspoilt⟩ :=
    read_configs_spoilt deployment.accepted hnot (ready_run.append words) hdone
  let rest : ScriptText := deployment.runBack ++ own " " ++ own "2>&1 |" ++
    own " tee pytest-output.log\n" ++ ownLines Deployment.closing
  have hscript : Reader.read dialect {} deployment.remoteScript =
      ((runReader.after commands).append words).read dialect
        ((deployment.configs.flatMap fun config ↦ configText config ++ own " ") ++ rest) := by
    rw [← hread, ← read_append, ← configArgs_space, remoteScript_eq, Deployment.afterSudo]
    simp only [rest, List.append_assoc]
    rfl
  have hrest : Avoids .testRun rest :=
    (((avoids_runBack.append avoids_own).append avoids_own).append avoids_own).append avoids_ownLines
  have hmode := h.untouched
  have ⟨command, hcommand, hline, hwords⟩ := h.receives
  rw [hscript, read_append] at hmode hcommand
  have hne := (read_spoilt hrest hspoilt).ne hmode hcommand hline
  apply hne
  rw [hwords, testRunWords_eq, ← hplace deployment.backWords, runWords_shown hshown]
  rfl

/-- With plain config paths, the test run is a command with the words it should get. -/
theorem read_testRun {commands : List (Command ScriptLine)}
    (hbefore : (fresh []).read dialect deployment.beforeRun = fresh commands)
    (hplain : ∀ config ∈ deployment.configs, IsPlain dialect config.toList) :
    ∃ words, words.map Word.shown = deployment.testRunWords ∧
      (fresh []).read dialect (deployment.beforeRun ++ (first .testRun "sudo" ++ own " ") ++
        (deployment.runFront ++ own " ") ++ (deployment.configArgs ++ own " ") ++
          (deployment.runBack ++ own " ") ++ own "2>&1 |") =
            fresh (commands ++ [⟨some .testRun, words⟩]) := by
  have ⟨words, hshown, hread⟩ := read_runFront hbefore
  have hconfigs : Carries dialect deployment.configArgs (configWords deployment.configs) :=
    carries_spaced fun config hconfig ↦
      carries_config (deployment.accepted config hconfig) (hplain config hconfig)
  have ⟨paths, hpaths, hpathsShown⟩ := hconfigs
  have ⟨back, hback, hbackShown⟩ := @carries_runBack dialect deployment
  have hready : ((runReader.after commands).append words).Ready := ready_run.append words
  refine ⟨runReader.words ++ words ++ paths ++ back, ?_, ?_⟩
  · rw [List.map_append, List.map_append, List.map_append, hshown, hpathsShown, hbackShown,
      testRunWords_eq]
    rfl
  · have hfront : (fresh []).read dialect (deployment.beforeRun ++
        (first .testRun "sudo" ++ own " ") ++ (deployment.runFront ++ own " ") ++
          (deployment.configArgs ++ own " ")) =
            ((runReader.after commands).append words).append paths := by
      rw [read_append, hread, hpaths _ hready]
    have hall : (fresh []).read dialect (deployment.beforeRun ++
        (first .testRun "sudo" ++ own " ") ++ (deployment.runFront ++ own " ") ++
          (deployment.configArgs ++ own " ") ++ (deployment.runBack ++ own " ")) =
            (((runReader.after commands).append words).append paths).append back := by
      rw [read_append, hfront, hback _ (hready.append paths)]
    rw [read_append, hall, Ready.read_pipe ((hready.append paths).append back)]
    simp [Reader.append, Reader.after, runReader]

/-- With the three conditions, the script carries its values. -/
theorem carries_of_conditions
    (hdirectory : EndsLine dialect directoryReader (value deployment.effectiveRemoteDir.toList))
    (hplain : ∀ config ∈ deployment.configs, IsPlain dialect config.toList)
    (hmessage : EndsLine dialect messageReader deployment.message) :
    CarriesVerbatim dialect deployment := by
  obtain ⟨commands, hbefore, ⟨cd, hcd, hcdLine⟩, ⟨echo, hecho, hechoLine⟩⟩ :=
    read_beforeRun hdirectory hmessage
  obtain ⟨words, hshown, hread⟩ := read_testRun hbefore hplain
  have htee : isLine " tee pytest-output.log\n".toList = true := by decide +kernel
  obtain ⟨later, hlater⟩ := @read_line ScriptLine dialect _ htee
  obtain ⟨others, hothers⟩ := @read_lines ScriptLine dialect _ isLine_closing
  have hfinal : Reader.read dialect {} deployment.remoteScript =
      fresh (commands ++ [⟨some .testRun, words⟩] ++ later ++ others) := by
    have hscript : deployment.remoteScript =
        deployment.beforeRun ++ (first .testRun "sudo" ++ own " ") ++
          (deployment.runFront ++ own " ") ++ (deployment.configArgs ++ own " ") ++
            (deployment.runBack ++ own " ") ++ own "2>&1 |" ++ own " tee pytest-output.log\n" ++
              ownLines Deployment.closing := by
      rw [remoteScript_eq, Deployment.afterSudo]
      simp only [List.append_assoc]
    change (fresh []).read dialect deployment.remoteScript = _
    rw [hscript, read_append, read_append, hread, read_fresh, own, hlater, read_after, read_fresh,
      ownLines, hothers]
    simp [Reader.after, fresh]
  have htestRun : (⟨some .testRun, words⟩ : Command ScriptLine) ∈
      (Reader.read dialect {} deployment.remoteScript).commands := by
    rw [hfinal]
    simp [fresh]
  have hearlier : ∀ command ∈ commands,
      command ∈ (Reader.read dialect {} deployment.remoteScript).commands := by
    intro command hcommand
    rw [hfinal]
    simp [fresh, hcommand]
  constructor
  · rw [hfinal]
    exact fun h ↦ by cases h
  · intro line
    cases line with
    | cd => exact ⟨cd, hearlier cd hcd, hcdLine⟩
    | announce => exact ⟨echo, hearlier echo hecho, hechoLine⟩
    | testRun => exact ⟨_, htestRun, rfl⟩
  · exact ⟨_, htestRun, rfl, hshown⟩

/-! ## The message behind plain paths -/

/-- A text which stands for itself between double quotes. -/
def Verbatim (text : ScriptText) : Prop := literal true (text.map Glyph.char) = true

theorem Verbatim.append {front back : ScriptText} (hfront : Verbatim front) (hback : Verbatim back) :
    Verbatim (front ++ own " " ++ back) := by
  have hsplit : (front ++ own " " ++ back).map Glyph.char =
      front.map Glyph.char ++ ' ' :: back.map Glyph.char := by
    simp [own]
  rw [Verbatim, hsplit, literal_append_space, Bool.and_eq_true]
  exact ⟨hfront, hback⟩

theorem verbatim_own {text : String} (h : literal true text.toList = true) :
    Verbatim (own text) := by
  rw [Verbatim, own, List.map_map]
  exact (congrArg (literal true) (List.map_id _)).trans h

theorem verbatim_configs {configs : List String}
    (hplain : ∀ config ∈ configs, IsPlain dialect config.toList) {back : ScriptText}
    (hback : Verbatim back) :
    Verbatim ((configs.flatMap fun config ↦ configText config ++ own " ") ++ back) := by
  induction configs with
  | nil => exact hback
  | cons config configs ih =>
    have hvalue : Verbatim (value config.toList) := by
      rw [Verbatim, value, List.map_map]
      exact (congrArg (literal true) (List.map_id _)).trans
        (literal_true_of_false (hplain config List.mem_cons_self).1)
    have hoption : Verbatim (own "-f" : ScriptText) := verbatim_own (by decide)
    have hrest := ih fun other hother ↦ hplain other (List.mem_cons_of_mem config hother)
    have hall : Verbatim (own "-f" ++ own " " ++ value config.toList ++ own " " ++
        ((configs.flatMap fun config ↦ configText config ++ own " ") ++ back)) :=
      (hoption.append hvalue).append hrest
    rw [List.flatMap_cons, List.append_assoc]
    exact hall

/-- The message up to the arguments is read as it is. -/
theorem read_messageFront (hplain : ∀ config ∈ deployment.configs, IsPlain dialect config.toList) :
    messageReader.read dialect deployment.messageFront = deployment.announcementReader := by
  let front : ScriptText := own "Command: isvctl test run" ++ own " " ++
    ((deployment.configs.flatMap fun config ↦ configText config ++ own " ") ++
      (own "--phase" ++ own " " ++ own deployment.phase.value))
  have hfront : deployment.messageFront = front ++ own " " := by
    have hstart : (own "Command: isvctl test run " : ScriptText) =
        own "Command: isvctl test run" ++ own " " := by
      rw [← own_append]
      exact congrArg own (by decide +kernel)
    have hphase : (own (" --phase " ++ deployment.phase.value ++ " ") : ScriptText) =
        own " " ++ (own "--phase" ++ own " " ++ own deployment.phase.value) ++ own " " := by
      simp only [← own_append, ← String.append_assoc]
      exact congrArg (fun start ↦ own (start ++ deployment.phase.value ++ " ")) (by decide +kernel)
    rw [Deployment.messageFront, hstart, hphase]
    simp only [front, ← configArgs_space, List.append_assoc]
  have hphase : Verbatim (own deployment.phase.value) :=
    verbatim_own (literal_true_of_false (literal_of_harmless (harmless_phase deployment.phase)))
  have hverbatim : Verbatim front :=
    (verbatim_own (by decide +kernel)).append
      (verbatim_configs hplain ((verbatim_own (by decide)).append hphase))
  have hread : (messageReader.read dialect front).settled =
      { messageReader.settled with
        token := messageReader.settled.token ++ front.map (Glyph.piece true) } :=
    @read_literal ScriptLine dialect messageReader true front (fun _ _ hmode ↦ nomatch hmode) rfl
      hverbatim
  have hspace : ∀ quoted value, (messageReader.read dialect front).mode = .dollar quoted value →
      opens quoted ' ' = false := by
    intro quoted _ _
    cases quoted <;> decide
  have hlast : ∀ token : Word, Reader.step dialect
      { messageReader.settled with token := messageReader.settled.token ++ token } ⟨' ', .own⟩ =
        { messageReader with token := token ++ [⟨.char ' ', true, false⟩] } := fun _ ↦ rfl
  have hpieces : (front ++ own " ").map (Glyph.piece true) =
      front.map (Glyph.piece true) ++ [⟨.char ' ', true, false⟩] := List.map_append
  rw [hfront, read_append, read_space, ← step_settled (g := ⟨' ', .own⟩) hspace, hread, hlast,
    Deployment.announcementReader, hfront, hpieces]

theorem endsLine_message (hplain : ∀ config ∈ deployment.configs, IsPlain dialect config.toList) :
    EndsLine dialect messageReader deployment.message ↔
      EndsLine dialect deployment.announcementReader deployment.passedOn := by
  unfold EndsLine
  rw [Deployment.message, List.append_assoc, read_append, read_messageFront hplain]

/-- The script carries its values exactly when the remote directory and the arguments of the message
end their lines, and all config paths are plain words. -/
theorem carriesVerbatim_iff (dialect : Dialect) (deployment : Deployment) :
    CarriesVerbatim dialect deployment ↔
      EndsLine dialect directoryReader (value deployment.effectiveRemoteDir.toList) ∧
        (∀ config ∈ deployment.configs, IsPlain dialect config.toList) ∧
        EndsLine dialect deployment.announcementReader deployment.passedOn := by
  constructor
  · intro h
    have hplain := plain_of_carries h
    exact ⟨directory_of_carries h, hplain, (endsLine_message hplain).mp (message_of_carries h)⟩
  · rintro ⟨hdirectory, hplain, hpassed⟩
    exact carries_of_conditions hdirectory hplain ((endsLine_message hplain).mpr hpassed)

/-! ## Deployments which are not carried -/

/-- A config path with a blank. -/
def spacedPath : Deployment where
  effectiveRemoteDir := "/opt/isv"
  configs := ["isvctl/a b.yaml"]
  phase := .test
  ne_nil := List.cons_ne_nil _ _
  accepted := by decide +kernel

/-- A pytest argument with a command substitution. -/
def substitutedArgument : Deployment where
  effectiveRemoteDir := "/opt/isv"
  configs := ["isvctl/a.yaml"]
  phase := .test
  args := ["-k", "$(id)"]
  ne_nil := List.cons_ne_nil _ _
  accepted := by decide +kernel

/-- The path is read as two words, and the argument is executed for the message. -/
theorem values_not_carried :
    ¬ CarriesVerbatim .never spacedPath ∧ ¬ CarriesVerbatim .never substitutedArgument := by
  constructor
  · intro h
    have hplain : IsPlain .never "isvctl/a b.yaml".toList :=
      plain_of_carries h _ List.mem_cons_self
    revert hplain
    decide +kernel
  · intro h
    have ⟨commands, hends⟩ := (endsLine_message (plain_of_carries h)).mp (message_of_carries h)
    have hlost : (substitutedArgument.announcementReader.read .never
        (substitutedArgument.passedOn ++ own "\"\n")).mode = .lost := by
      decide +kernel
    rw [hends] at hlost
    exact nomatch hlost

end IsvValidation.Deploy
