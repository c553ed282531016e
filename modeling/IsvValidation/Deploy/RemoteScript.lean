import Mathlib.Data.List.Basic
import Mathlib.Logic.Function.Basic

/-!
# The remote script of a deploy

The shell script which `deploy run` sends to the target, command by command, on the files which stand
there. The script does not stop when a command fails, apart from the trees which cannot be removed;
the session may be lost after any command. The exit status of `tar` and `uv sync` is not looked at,
and they write no artifact.
-/

namespace IsvValidation.Deploy

/-! ## Files -/

abbrev Path := List String

/-- A file, and whether the remote execution of this invocation wrote it. -/
structure Artifact where
  text : String
  own : Bool
  deriving DecidableEq

/-- What stands on the target before the script: the texts of the files by their real locations, and
where a path leads when links are followed. A login shell starts in the home directory. -/
structure Target where
  home : Path
  real : Path → Path
  files : Path → Option String

/-! ## Commands -/

inductive RemoteCommand where
  | cd
  | clear (dir : Path)
  | extract
  | clearVenv
  | uvSync
  | testRun
  deriving DecidableEq

/-- `REMOTE_REPLACED_DIRS`. -/
def remoteReplacedDirs : List Path :=
  [["isvtest", "src"], ["isvreporter", "src"], ["isvctl", "src"], ["isvctl", "configs", "suites"]]

def remoteScript : List RemoteCommand :=
  .cd :: remoteReplacedDirs.map .clear ++ [.extract, .clearVenv, .uvSync, .testRun]

/-- How `rm -rf` ends: the tree is gone, or it fails and has taken some of the files. -/
inductive RmOutcome where
  | removed
  | failed (taken : List Path)
  deriving DecidableEq

namespace RmOutcome

def ok : RmOutcome → Bool
  | removed => true
  | failed _ => false

def takes (target path : Path) : RmOutcome → Bool
  | removed => target.isPrefixOf path
  | failed taken => target.isPrefixOf path && taken.contains path

end RmOutcome

/-- The exit status of `isvctl test run`, and the files which it and `tee` have written by their
paths from the working directory. -/
structure TestRunOutcome where
  exitCode : ℕ
  written : List (Path × String)

/-- The outcomes of the commands; what is tested and removed goes by its path. -/
structure ScriptOutcome where
  enters : Bool
  found : Path → Bool
  sudoRm : Path → RmOutcome
  rm : Path → RmOutcome
  testRun : TestRunOutcome

namespace ScriptOutcome

variable (outcome : ScriptOutcome)

/-- `sudo rm -rf "$dir" 2>/dev/null || rm -rf "$dir"`. -/
def removes (path : Path) : Bool := (outcome.sudoRm path).ok || (outcome.rm path).ok

/-- What the two commands take away. -/
def taken (real : Path → Path) (path file : Path) : Bool :=
  (outcome.sudoRm path).takes (real path) file ||
    (!(outcome.sudoRm path).ok && (outcome.rm path).takes (real path) file)

end ScriptOutcome

/-! ## The session -/

structure Shell where
  cwd : Path
  files : Path → Option Artifact
  removed : Path → Bool := fun _ ↦ false
  testExit : Option ℕ := none
  exited : Option ℕ := none

namespace Shell

def start (target : Target) : Shell :=
  { cwd := target.home
    files := fun path ↦ (target.files path).map fun text ↦ ⟨text, false⟩ }

/-- Take files away. -/
def erase (shell : Shell) (taken : Path → Bool) : Shell :=
  { shell with
    files := fun path ↦ if taken path then none else shell.files path
    removed := fun path ↦ shell.removed path || taken path }

/-- Write files, by their real locations. -/
def write (shell : Shell) (written : List (Path × String)) : Shell :=
  { shell with
    files := written.foldl (fun files file ↦ Function.update files file.1 (some ⟨file.2, true⟩))
      shell.files }

/-- One command. -/
def step (target : Target) (remoteDir : Path) (outcome : ScriptOutcome) (shell : Shell) :
    RemoteCommand → Shell
  | .cd => if outcome.enters then { shell with cwd := remoteDir } else shell
  | .clear dir =>
    let path := shell.cwd ++ dir
    if outcome.found path then
      let cleared := shell.erase (outcome.taken target.real path)
      if outcome.removes path then cleared else { cleared with exited := some 1 }
    else shell
  | .extract => shell
  | .clearVenv =>
    let path := shell.cwd ++ [".venv"]
    if outcome.found path then shell.erase (outcome.taken target.real path) else shell
  | .uvSync => shell
  | .testRun =>
    let written := outcome.testRun.written.map fun file ↦
      (target.real (shell.cwd ++ file.1), file.2)
    { shell.write written with
      testExit := some outcome.testRun.exitCode
      exited := some outcome.testRun.exitCode }

/-- The commands up to the first which exits. -/
def run (target : Target) (remoteDir : Path) (outcome : ScriptOutcome) (shell : Shell) :
    List RemoteCommand → Shell
  | [] => shell
  | command :: rest =>
    let next := shell.step target remoteDir outcome command
    if next.exited.isSome then next else next.run target remoteDir outcome rest

end Shell

/-- How `SSHClient.execute` ends: ssh does not run, the session is lost after some commands, or the
script comes to its end. -/
inductive SshOutcome where
  | notRun
  | lost (commands : ℕ)
  | finished
  deriving DecidableEq

def SshOutcome.commands : SshOutcome → List RemoteCommand
  | notRun => []
  | lost commands => remoteScript.take commands
  | finished => remoteScript

/-- `SSHClient.execute`: the exit code, and the target afterwards. -/
def execute (target : Target) (remoteDir : Path) (outcome : ScriptOutcome) (ssh : SshOutcome) :
    Int × Shell :=
  let shell := (Shell.start target).run target remoteDir outcome ssh.commands
  match ssh with
  | .notRun => (-1, shell)
  | .lost _ => (255, shell)
  | .finished => (shell.exited.getD 0, shell)

/-! ## What a session has done -/

/-- The directory in which the script goes on after `cd`. -/
def ScriptOutcome.workDir (outcome : ScriptOutcome) (target : Target) (remoteDir : Path) : Path :=
  if outcome.enters then remoteDir else target.home

namespace RemoteCommand

variable (target : Target) (outcome : ScriptOutcome) (cwd : Path)

/-- The tree which a command removes, if it is there. -/
def tree : RemoteCommand → Option Path
  | clear dir => some (cwd ++ dir)
  | clearVenv => some (cwd ++ [".venv"])
  | _ => none

/-- A command takes a file away. -/
def Takes (command : RemoteCommand) (file : Path) : Prop :=
  ∃ path, command.tree cwd = some path ∧ outcome.found path = true ∧
    outcome.taken target.real path file = true

/-- A command ends the script. -/
def Exits : RemoteCommand → Prop
  | clear dir => outcome.found (cwd ++ dir) = true ∧ outcome.removes (cwd ++ dir) = false
  | testRun => True
  | _ => False

end RemoteCommand

/-- A command is among those which are run, and none before it ends the script. -/
def Reached (exits : RemoteCommand → Prop) (commands : List RemoteCommand)
    (command : RemoteCommand) : Prop :=
  ∃ before after, commands = before ++ command :: after ∧ ∀ earlier ∈ before, ¬ exits earlier

/-- The test run writes a file. -/
def Writes (target : Target) (outcome : ScriptOutcome) (cwd file : Path) : Prop :=
  ∃ item ∈ outcome.testRun.written, target.real (cwd ++ item.1) = file

/-! ## The session does what is said of it -/

theorem not_reached_nil {exits : RemoteCommand → Prop} {command : RemoteCommand} :
    ¬ Reached exits [] command := by
  intro ⟨before, after, h, _⟩
  simp at h

theorem reached_cons {exits : RemoteCommand → Prop} {first command : RemoteCommand}
    {rest : List RemoteCommand} :
    Reached exits (first :: rest) command ↔
      command = first ∨ ¬ exits first ∧ Reached exits rest command := by
  constructor
  · intro ⟨before, after, heq, hbefore⟩
    match before with
    | [] =>
      rw [List.nil_append, List.cons.injEq] at heq
      exact .inl heq.1.symm
    | earlier :: before =>
      rw [List.cons_append, List.cons.injEq] at heq
      rw [heq.1]
      exact .inr ⟨hbefore earlier List.mem_cons_self, before, after, heq.2,
        fun other hmem ↦ hbefore other (List.mem_cons_of_mem earlier hmem)⟩
  · intro h
    match h with
    | .inl heq => exact ⟨[], rest, by rw [heq, List.nil_append], by simp⟩
    | .inr ⟨hfirst, before, after, heq, hbefore⟩ =>
      refine ⟨first :: before, after, by rw [heq, List.cons_append], ?_⟩
      intro earlier hmem
      match List.mem_cons.mp hmem with
      | .inl heq => rwa [heq]
      | .inr hmem => exact hbefore earlier hmem

section Session

variable {target : Target} {remoteDir : Path} {outcome : ScriptOutcome} {shell : Shell}

/-- A command other than `cd` stays in its directory. -/
theorem step_cwd {command : RemoteCommand} (hcd : command ≠ .cd) :
    (shell.step target remoteDir outcome command).cwd = shell.cwd := by
  cases command with
  | cd => exact absurd rfl hcd
  | clear dir =>
    simp only [Shell.step]
    split
    · split <;> rfl
    · rfl
  | clearVenv =>
    simp only [Shell.step]
    split <;> rfl
  | extract | uvSync | testRun => rfl

theorem step_exited {command : RemoteCommand} (hexited : shell.exited = none) :
    (shell.step target remoteDir outcome command).exited.isSome ↔
      command.Exits outcome shell.cwd := by
  cases command with
  | cd =>
    simp only [Shell.step, RemoteCommand.Exits]
    split <;> simp [hexited]
  | clear dir =>
    simp only [Shell.step, RemoteCommand.Exits]
    split
    · next hfound =>
      split
      · next hremoves => simp [Shell.erase, hexited, hremoves]
      · next hremoves => simp [hfound, hremoves]
    · next hfound => simp [hexited, hfound]
  | clearVenv =>
    simp only [Shell.step, RemoteCommand.Exits]
    split <;> simp [Shell.erase, hexited]
  | extract | uvSync => simp [Shell.step, RemoteCommand.Exits, hexited]
  | testRun => simp [Shell.step, RemoteCommand.Exits]

theorem step_removed {command : RemoteCommand} {file : Path} :
    (shell.step target remoteDir outcome command).removed file = true ↔
      shell.removed file = true ∨ command.Takes target outcome shell.cwd file := by
  cases command with
  | cd =>
    simp only [Shell.step, RemoteCommand.Takes, RemoteCommand.tree]
    split <;> simp
  | clear dir =>
    simp only [Shell.step, RemoteCommand.Takes, RemoteCommand.tree]
    split
    · next hfound => split <;> simp [Shell.erase, hfound]
    · next hfound => simp [hfound]
  | clearVenv =>
    simp only [Shell.step, RemoteCommand.Takes, RemoteCommand.tree]
    split
    · next hfound => simp [Shell.erase, hfound]
    · next hfound => simp [hfound]
  | extract | uvSync => simp [Shell.step, RemoteCommand.Takes, RemoteCommand.tree]
  | testRun => simp [Shell.step, Shell.write, RemoteCommand.Takes, RemoteCommand.tree]

theorem step_files_taken {command : RemoteCommand} {file : Path}
    (h : command.Takes target outcome shell.cwd file) :
    (shell.step target remoteDir outcome command).files file = none := by
  have ⟨path, htree, hfound, htaken⟩ := h
  cases command with
  | clear dir =>
    cases htree
    simp only [Shell.step, if_pos hfound]
    split <;> simp [Shell.erase, htaken]
  | clearVenv =>
    cases htree
    simp [Shell.step, hfound, Shell.erase, htaken]
  | cd | extract | uvSync | testRun => cases htree

theorem step_files_kept {command : RemoteCommand} {file : Path} (hrun : command ≠ .testRun)
    (h : ¬ command.Takes target outcome shell.cwd file) :
    (shell.step target remoteDir outcome command).files file = shell.files file := by
  cases command with
  | cd =>
    simp only [Shell.step]
    split <;> rfl
  | clear dir =>
    simp only [Shell.step]
    split
    · next hfound =>
      have htaken : ¬ outcome.taken target.real (shell.cwd ++ dir) file = true :=
        fun htaken ↦ h ⟨_, rfl, hfound, htaken⟩
      split <;> simp [Shell.erase, htaken]
    · rfl
  | clearVenv =>
    simp only [Shell.step]
    split
    · next hfound =>
      have htaken : ¬ outcome.taken target.real (shell.cwd ++ [".venv"]) file = true :=
        fun htaken ↦ h ⟨_, rfl, hfound, htaken⟩
      simp [Shell.erase, htaken]
    · rfl
  | extract | uvSync => rfl
  | testRun => exact absurd rfl hrun

theorem write_files (written : List (Path × String)) (file : Path) (shell : Shell) :
    (∃ text, (file, text) ∈ written ∧ (shell.write written).files file = some ⟨text, true⟩) ∨
      (∀ text, (file, text) ∉ written) ∧ (shell.write written).files file = shell.files file := by
  induction written generalizing shell with
  | nil => exact .inr ⟨by simp, rfl⟩
  | cons first rest ih =>
    match ih (shell.write [first]) with
    | .inl ⟨text, hmem, hfile⟩ => exact .inl ⟨text, List.mem_cons_of_mem first hmem, hfile⟩
    | .inr ⟨hnot, hfile⟩ =>
      change (shell.write (first :: rest)).files file = _ at hfile
      by_cases heq : file = first.1
      · refine .inl ⟨first.2, by simp [heq], hfile.trans ?_⟩
        rw [heq]
        exact Function.update_self first.1 _ _
      · refine .inr ⟨?_, hfile.trans (Function.update_of_ne heq _ _)⟩
        intro text hmem
        match List.mem_cons.mp hmem with
        | .inl hfirst => exact heq (congrArg Prod.fst hfirst)
        | .inr hrest => exact hnot text hrest

theorem step_testRun_files (target : Target) (remoteDir : Path) (outcome : ScriptOutcome)
    (shell : Shell) (file : Path) :
    (Writes target outcome shell.cwd file ∧
      ∃ text, (shell.step target remoteDir outcome .testRun).files file = some ⟨text, true⟩) ∨
    ¬ Writes target outcome shell.cwd file ∧
      (shell.step target remoteDir outcome .testRun).files file = shell.files file := by
  have hwrites : ∀ text, (file, text) ∈ outcome.testRun.written.map (fun item ↦
      (target.real (shell.cwd ++ item.1), item.2)) →
        Writes target outcome shell.cwd file := by
    intro text hmem
    have ⟨item, hitem, heq⟩ := List.mem_map.mp hmem
    exact ⟨item, hitem, congrArg Prod.fst heq⟩
  match write_files (outcome.testRun.written.map fun item ↦
      (target.real (shell.cwd ++ item.1), item.2)) file shell with
  | .inl ⟨text, hmem, hfile⟩ => exact .inl ⟨hwrites text hmem, text, hfile⟩
  | .inr ⟨hnot, hfile⟩ =>
    refine .inr ⟨fun ⟨item, hitem, heq⟩ ↦ hnot item.2 ?_, hfile⟩
    exact List.mem_map.mpr ⟨item, hitem, by rw [heq]⟩

/-- What a run of commands has removed and written, and which files were there before it. -/
structure Follows (target : Target) (outcome : ScriptOutcome) (commands : List RemoteCommand)
    (shell final : Shell) : Prop where
  removed : ∀ file, final.removed file = true ↔ shell.removed file = true ∨
    ∃ command, Reached (RemoteCommand.Exits outcome shell.cwd) commands command ∧
      command.Takes target outcome shell.cwd file
  present : ∀ file, final.files file ≠ none ↔
    Reached (RemoteCommand.Exits outcome shell.cwd) commands .testRun ∧
        Writes target outcome shell.cwd file ∨
      shell.files file ≠ none ∧
        ¬ ∃ command, Reached (RemoteCommand.Exits outcome shell.cwd) commands command ∧
          command.Takes target outcome shell.cwd file
  leftover : ∀ file, (∃ text, final.files file = some ⟨text, false⟩) ↔
    (∃ text, shell.files file = some ⟨text, false⟩) ∧
      (¬ ∃ command, Reached (RemoteCommand.Exits outcome shell.cwd) commands command ∧
        command.Takes target outcome shell.cwd file) ∧
      ¬ (Reached (RemoteCommand.Exits outcome shell.cwd) commands .testRun ∧
        Writes target outcome shell.cwd file)

theorem Follows.nil {final : Shell} (hfiles : final.files = shell.files)
    (hremoved : final.removed = shell.removed) : Follows target outcome [] shell final where
  removed := by simp [not_reached_nil, hremoved]
  present := by simp [not_reached_nil, hfiles]
  leftover := by simp [not_reached_nil, hfiles]

/-- Nothing which ends the script is followed by another command. -/
theorem Follows.exit {command : RemoteCommand} {rest : List RemoteCommand}
    (hexits : command.Exits outcome shell.cwd) :
    Follows target outcome (command :: rest) shell
      (shell.step target remoteDir outcome command) := by
  have hreached : ∀ other, Reached (RemoteCommand.Exits outcome shell.cwd) (command :: rest) other ↔
      other = command := by
    intro other
    simp [reached_cons, hexits]
  by_cases hrun : command = .testRun
  · rw [hrun] at hreached ⊢
    have htakes : ∀ file, ¬ RemoteCommand.testRun.Takes target outcome shell.cwd file :=
      fun file ⟨_, h, _⟩ ↦ by cases h
    constructor
    · intro file
      simp [step_removed, hreached, htakes]
    · intro file
      match step_testRun_files target remoteDir outcome shell file with
      | .inl ⟨hwrites, text, hfile⟩ => simp [hfile, hreached, hwrites]
      | .inr ⟨hwrites, hfile⟩ => simp [hfile, hreached, hwrites, htakes]
    · intro file
      match step_testRun_files target remoteDir outcome shell file with
      | .inl ⟨hwrites, text, hfile⟩ => simp [hfile, hreached, hwrites]
      | .inr ⟨hwrites, hfile⟩ => simp [hfile, hreached, hwrites, htakes]
  · have hne : RemoteCommand.testRun ≠ command := Ne.symm hrun
    constructor
    · intro file
      simp [step_removed, hreached]
    · intro file
      by_cases htakes : command.Takes target outcome shell.cwd file
      · simp [step_files_taken htakes, hreached, htakes, hne]
      · simp [step_files_kept hrun htakes, hreached, htakes, hne]
    · intro file
      by_cases htakes : command.Takes target outcome shell.cwd file
      · simp [step_files_taken htakes, hreached, htakes]
      · simp [step_files_kept hrun htakes, hreached, htakes, hne]

theorem Follows.cons {command : RemoteCommand} {rest : List RemoteCommand} {final : Shell}
    (hcd : command ≠ .cd) (hexits : ¬ command.Exits outcome shell.cwd)
    (h : Follows target outcome rest (shell.step target remoteDir outcome command) final) :
    Follows target outcome (command :: rest) shell final := by
  have hrun : command ≠ .testRun := fun heq ↦ hexits (heq ▸ trivial)
  have hreached : ∀ other, Reached (RemoteCommand.Exits outcome shell.cwd) (command :: rest) other ↔
      other = command ∨ Reached (RemoteCommand.Exits outcome shell.cwd) rest other := by
    intro other
    simp [reached_cons, hexits]
  constructor
  · intro file
    rw [h.removed, step_removed, step_cwd hcd]
    simp only [hreached]
    grind
  · intro file
    rw [h.present, step_cwd hcd]
    simp only [hreached, hrun.symm, false_or]
    by_cases htakes : command.Takes target outcome shell.cwd file
    · rw [step_files_taken htakes]
      grind
    · rw [step_files_kept hrun htakes]
      grind
  · intro file
    rw [h.leftover, step_cwd hcd]
    simp only [hreached, hrun.symm, false_or]
    by_cases htakes : command.Takes target outcome shell.cwd file
    · rw [step_files_taken htakes]
      grind
    · rw [step_files_kept hrun htakes]
      grind

/-- The run lemma: commands after `cd`. -/
theorem run_follows {commands : List RemoteCommand} (hcd : .cd ∉ commands)
    (hexited : shell.exited = none) :
    Follows target outcome commands shell (shell.run target remoteDir outcome commands) := by
  induction commands generalizing shell with
  | nil => exact .nil rfl rfl
  | cons command rest ih =>
    have hne : command ≠ .cd := fun heq ↦ hcd (heq ▸ List.mem_cons_self)
    have hrest : .cd ∉ rest := fun hmem ↦ hcd (List.mem_cons_of_mem command hmem)
    simp only [Shell.run]
    by_cases hexits : command.Exits outcome shell.cwd
    · rw [if_pos ((step_exited hexited).mpr hexits)]
      exact .exit hexits
    · have hnone : ¬ (shell.step target remoteDir outcome command).exited.isSome :=
        mt (step_exited hexited).mp hexits
      rw [if_neg hnone]
      exact .cons hne hexits (ih hrest (by simpa using hnone))

/-- A script exits with 1, or as the test run does. -/
theorem step_exits {command : RemoteCommand} (hexited : shell.exited = none)
    (h : (shell.step target remoteDir outcome command).exited.isSome) :
    (shell.step target remoteDir outcome command).exited = some 1 ∨
      (shell.step target remoteDir outcome command).exited =
        (shell.step target remoteDir outcome command).testExit := by
  have hexits := (step_exited hexited).mp h
  cases command with
  | clear dir =>
    simp only [Shell.step, if_pos hexits.1, hexits.2]
    exact .inl rfl
  | testRun => exact .inr rfl
  | cd | extract | clearVenv | uvSync => exact hexits.elim

theorem run_exits {commands : List RemoteCommand} (hexited : shell.exited = none)
    (hmem : .testRun ∈ commands) :
    (shell.run target remoteDir outcome commands).exited = some 1 ∨
      (shell.run target remoteDir outcome commands).exited ≠ none ∧
      (shell.run target remoteDir outcome commands).exited =
        (shell.run target remoteDir outcome commands).testExit := by
  induction commands generalizing shell with
  | nil => cases hmem
  | cons command rest ih =>
    simp only [Shell.run]
    split
    · next hsome =>
      have hne := Option.isSome_iff_ne_none.mp hsome
      exact (step_exits hexited hsome).imp_right fun heq ↦ ⟨hne, heq⟩
    · next hnone =>
      have hrest : .testRun ∈ rest := by
        match List.mem_cons.mp hmem with
        | .inl heq =>
          rw [← heq] at hnone
          have hexits : RemoteCommand.testRun.Exits outcome shell.cwd := trivial
          exact absurd ((step_exited hexited).mpr hexits) hnone
        | .inr hrest => exact hrest
      exact ih (by simpa using hnone) hrest

end Session

/-- The exit code is 0 only if the test run exited 0. -/
theorem execute_eq_zero {target : Target} {remoteDir : Path} {outcome : ScriptOutcome}
    {ssh : SshOutcome} (h : (execute target remoteDir outcome ssh).1 = 0) :
    (execute target remoteDir outcome ssh).2.testExit = some 0 := by
  cases ssh with
  | notRun => cases h
  | lost commands => cases h
  | finished =>
    have hmem : RemoteCommand.testRun ∈ remoteScript := by decide
    have hexits : ((Shell.start target).run target remoteDir outcome remoteScript).exited = some 1 ∨
        _ := run_exits rfl hmem
    simp only [execute, SshOutcome.commands] at h ⊢
    match hexits with
    | .inl hone => simp [hone] at h
    | .inr ⟨hne, heq⟩ =>
      have ⟨code, hcode⟩ := Option.ne_none_iff_exists'.mp hne
      rw [← heq, hcode]
      simpa [hcode] using h

/-- Before the script nothing is its own. -/
theorem start_files (target : Target) (file : Path) :
    (∃ text, (Shell.start target).files file = some ⟨text, false⟩) ↔
      target.files file ≠ none := by
  cases h : target.files file with
  | none => simp [Shell.start, h]
  | some text => simp [Shell.start, h]

theorem commands_eq (ssh : SshOutcome) :
    ssh.commands = [] ∨ ∃ rest, ssh.commands = .cd :: rest ∧ .cd ∉ rest := by
  have htail : RemoteCommand.cd ∉ remoteScript.tail := by decide
  cases ssh with
  | notRun => exact .inl rfl
  | lost commands =>
    cases commands with
    | zero => exact .inl rfl
    | succ commands =>
      exact .inr ⟨remoteScript.tail.take commands, rfl, fun h ↦ htail (List.mem_of_mem_take h)⟩
  | finished => exact .inr ⟨remoteScript.tail, rfl, htail⟩

/-! ## What is found after the session -/

/-- Some command of the session takes a file away. -/
def Taken (target : Target) (remoteDir : Path) (outcome : ScriptOutcome) (ssh : SshOutcome)
    (file : Path) : Prop :=
  ∃ command, Reached (RemoteCommand.Exits outcome (outcome.workDir target remoteDir)) ssh.commands
    command ∧ command.Takes target outcome (outcome.workDir target remoteDir) file

/-- The session gets to the test run, which writes a file. -/
def Written (target : Target) (remoteDir : Path) (outcome : ScriptOutcome) (ssh : SshOutcome)
    (file : Path) : Prop :=
  Reached (RemoteCommand.Exits outcome (outcome.workDir target remoteDir)) ssh.commands .testRun ∧
    Writes target outcome (outcome.workDir target remoteDir) file

section Found

variable {target : Target} {remoteDir : Path} {outcome : ScriptOutcome} {ssh : SshOutcome}

/-- The session follows its commands from the home directory, or from the remote one. -/
theorem execute_follows (target : Target) (remoteDir : Path) (outcome : ScriptOutcome)
    (ssh : SshOutcome) :
    ∃ shell, shell.cwd = outcome.workDir target remoteDir ∧
      shell.files = (Shell.start target).files ∧ shell.removed = (fun _ ↦ false) ∧
      Follows target outcome ssh.commands.tail shell (execute target remoteDir outcome ssh).2 := by
  have hshell : (execute target remoteDir outcome ssh).2 =
      (Shell.start target).run target remoteDir outcome ssh.commands := by
    cases ssh <;> rfl
  rw [hshell]
  match commands_eq ssh with
  | .inl hnil =>
    rw [hnil]
    exact ⟨{ Shell.start target with cwd := outcome.workDir target remoteDir }, rfl, rfl, rfl,
      .nil rfl rfl⟩
  | .inr ⟨rest, heq, hcd⟩ =>
    rw [heq]
    refine ⟨(Shell.start target).step target remoteDir outcome .cd, ?_, ?_, ?_, ?_⟩
    · simp only [Shell.step, ScriptOutcome.workDir]
      split <;> rfl
    · simp only [Shell.step]
      split <;> rfl
    · simp only [Shell.step]
      split <;> rfl
    · have hexited : ((Shell.start target).step target remoteDir outcome .cd).exited = none := by
        simp only [Shell.step]
        split <;> rfl
      simp only [Shell.run, hexited, Option.isSome_none, Bool.false_eq_true, if_false]
      exact run_follows hcd hexited

theorem reached_tail {exits : RemoteCommand → Prop} {command : RemoteCommand}
    (hcd : ¬ exits .cd) (hcommand : command ≠ .cd) :
    Reached exits ssh.commands.tail command ↔ Reached exits ssh.commands command := by
  match commands_eq ssh with
  | .inl hnil => rw [hnil, List.tail_nil]
  | .inr ⟨rest, heq, _⟩ => simp [heq, reached_cons, hcd, hcommand]

theorem taken_iff {file : Path} :
    (∃ command, Reached (RemoteCommand.Exits outcome (outcome.workDir target remoteDir))
        ssh.commands.tail command ∧
      command.Takes target outcome (outcome.workDir target remoteDir) file) ↔
      Taken target remoteDir outcome ssh file := by
  apply exists_congr
  intro command
  refine and_congr_left fun ⟨path, htree, _⟩ ↦ reached_tail id ?_
  intro heq
  rw [heq] at htree
  cases htree

theorem execute_removed (file : Path) :
    (execute target remoteDir outcome ssh).2.removed file = true ↔
      Taken target remoteDir outcome ssh file := by
  have ⟨shell, hcwd, _, hremoved, h⟩ := execute_follows target remoteDir outcome ssh
  rw [h.removed, hcwd, taken_iff, hremoved]
  simp

/-- A file is there after the session if the session wrote it, or left it. -/
theorem execute_present (file : Path) :
    (execute target remoteDir outcome ssh).2.files file ≠ none ↔
      Written target remoteDir outcome ssh file ∨
        target.files file ≠ none ∧ ¬ Taken target remoteDir outcome ssh file := by
  have ⟨shell, hcwd, hfiles, _, h⟩ := execute_follows target remoteDir outcome ssh
  rw [h.present, hcwd, taken_iff, reached_tail id (by simp), hfiles]
  simp [Written, Shell.start]

/-- A file is left over if it was there, and the session neither took it away nor wrote it. -/
theorem execute_leftover (file : Path) :
    (∃ text, (execute target remoteDir outcome ssh).2.files file = some ⟨text, false⟩) ↔
      target.files file ≠ none ∧ ¬ Taken target remoteDir outcome ssh file ∧
        ¬ Written target remoteDir outcome ssh file := by
  have ⟨shell, hcwd, hfiles, _, h⟩ := execute_follows target remoteDir outcome ssh
  rw [h.leftover, hcwd, taken_iff, reached_tail id (by simp), hfiles, start_files]
  rfl

end Found

end IsvValidation.Deploy
